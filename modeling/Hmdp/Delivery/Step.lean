import Hmdp.Lib.ConsumerGroup
import Hmdp.Pipeline.Step

/-!
# The seckill topic, its dead-letter topic and their listeners

`SeckillOrderKafkaConsumer` under `seckillOrderKafkaListenerContainerFactory`, over the pipeline of
`Pipeline/Step.lean`, whose messages are here records of two topics:

* both listeners take batches, acknowledge by hand behind their work, are retried
  `retry-attempts` times, and then have the records of the batch published to the dead-letter
  topic, in the partition they came from, one after the other;
* `SynchronousDeadLetterPublishingRecoverer.publish` waits for the broker. Where the answer does not
  come it throws, whether or not the record has been written, and the batch is polled again;
* `onDeadLetter` goes through `recoverDeadLetter` message by message, each a few statements of the
  pipeline's recovery, and starts over from the first message when it is retried.

The dead-letter listener has the same factory, so what it gives up comes back to its own topic.
Member `c` of its group works as process `2 * c` of the pipeline; the manual review loop has the
odd ones. A member that leaves in the middle of a call does not come back under its number.
-/

namespace Hmdp.Delivery

open Hmdp.Lib Hmdp.Lib.ConsumerGroup Hmdp.Model

/-- What the container factory and the producer are given. -/
structure ListenerConfig where
  /-- `hmdp.kafka.seckill-order.retry-attempts` -/
  retryAttempts : ℕ
  /-- the partition of a key, `String.valueOf(voucherId)` -/
  partitionOf : VoucherId → ℕ

/-- Where `onDeadLetter` stands in its loop. -/
structure Frame where
  cursor : ℕ
  /-- the message `recoverDeadLetter` is at work on -/
  calling : Option SeckillOrderMessage
  deriving DecidableEq

/-- The listener is not running. -/
def Frame.empty : Frame := ⟨0, none⟩

/-- A call of `recoverDeadLetter` that has returned, and the outbox row it has left. -/
structure Recovered where
  message : SeckillOrderMessage
  row : Option OutboxRow

/-- The pipeline with the two topics and the batches in hand. -/
structure State where
  pipeline : Pipeline.State
  /-- `hmdp.kafka.seckill-order.topic` and its consumer group -/
  orders : Topic SeckillOrderMessage
  /-- `hmdp.kafka.seckill-order.dlt-topic` and its consumer group -/
  deadLetters : Topic SeckillOrderMessage
  frames : ℕ → Frame
  /-- ghost -/
  recovered : List Recovered

/-- The steps of the pipeline, of the topics and of the two listeners. -/
inductive Action where
  /-- what needs no listener -/
  | pipeline (a : Pipeline.Action)
  | send (row : OutboxRow) (withOutboxId : Bool)
  /-- a container or the broker moves the group of the topic -/
  | orders (a : Move SeckillOrderMessage)
  | deadLetters (a : Move SeckillOrderMessage)
  /-- `onMessage` up to `acknowledge` -/
  | onMessage (member : ℕ) (tx : Transaction)
  /-- the recoverer publishes the next record of a batch; `answered` if the broker's answer comes
  in time -/
  | publish (fromDeadLetters : Bool) (member : ℕ) (answered : Bool)
  /-- `recoverDeadLetter` of the next message reads the outbox row -/
  | findByOrderId (member : ℕ)
  /-- a statement of the call, or an exception in it -/
  | recoverDeadLetter (member : ℕ) (a : Pipeline.Action)
  /-- `onDeadLetter` is through its messages and acknowledges -/
  | onDeadLetterReturns (member : ℕ)

/-- The process whose recovery call the action is about. -/
def recoveryOf : Pipeline.Action → Option ℕ
  | .retryLookup i => some i
  | .retryUpdate i _ _ _ _ => some i
  | .retryThrow i => some i
  | .markManualReview i _ _ => some i
  | _ => none

/-- The actions of the pipeline that are not a listener's nor a producer's. -/
def elsewhere : Pipeline.Action → Bool
  | .send _ _ => false
  | .createOrders _ _ => false
  | .readDeadLetter _ _ => false
  | .readManualReview i _ => i % 2 = 1
  | a => (recoveryOf a).all fun i => i % 2 = 1

/-- The moves a listener or the producer makes. -/
def ofListener : Move SeckillOrderMessage → Bool
  | .append _ _ => true
  | .listened _ => true
  | .recovered _ => true
  | _ => false

/-- The member whose listener must not be running for the move; any other move may come at any
time. -/
def waitsFor : Move SeckillOrderMessage → Option ℕ
  | .assign c _ => some c
  | .revoke c _ => some c
  | .poll c _ => some c
  | .giveUp c => some c
  | .handled c => some c
  | .reseek c => some c
  | .commit c => some c
  | .commitFails c => some c
  | _ => none

/-- A member goes on in its loop. -/
def State.setFrame (s : State) (c : ℕ) (frame : Frame) : State :=
  { s with frames := Function.update s.frames c frame }

/-- The outbox row of a message. -/
def rowOfMessage (m : SeckillOrderMessage) (db : Db) : Option OutboxRow :=
  m.orderId.bind fun o => Model.findByOrderId o db

/-- One step; `none` where the action is not enabled. -/
def step (rejects : Reservation → Bool) (config : ListenerConfig) (s : State) :
    Action → Option State
  | .pipeline a =>
    if elsewhere a then
      (Pipeline.step rejects s.pipeline a).map fun p => { s with pipeline := p }
    else none
  | .send row withOutboxId =>
    (Pipeline.step rejects s.pipeline (.send row withOutboxId)).map fun p =>
      { s with
        pipeline := p
        orders := s.orders.append (config.partitionOf row.voucherId)
          (row.toMessage withOutboxId) }
  | .orders a =>
    if ofListener a then none
    else (s.orders.move config.retryAttempts a).map fun g => { s with orders := g }
  | .deadLetters a =>
    if ofListener a ∨ ∃ c ∈ waitsFor a, s.frames c ≠ Frame.empty then none
    else
      (s.deadLetters.move config.retryAttempts a).bind fun g =>
        match a with
        | .leave c => some ({ s with deadLetters := g }.setFrame c Frame.empty)
        | .failed c =>
          if (s.frames c).calling.isSome then none
          else some ({ s with deadLetters := g }.setFrame c Frame.empty)
        | _ => some { s with deadLetters := g }
  | .onMessage c tx =>
    (s.orders.running config.retryAttempts c).bind fun batch =>
      let messages := s.orders.records batch
      (Pipeline.step rejects s.pipeline (.createOrders tx messages)).bind fun p =>
        let a : Move SeckillOrderMessage :=
          match createOrders tx messages s.pipeline.db with
          | .error _ => .failed c
          | .ok _ => .listened c
        (s.orders.move config.retryAttempts a).map fun g => { s with pipeline := p, orders := g }
  | .publish false c answered =>
    (s.orders.nextToRecover c).bind fun (p, m) =>
      (s.orders.move config.retryAttempts (.ofRecoverer c answered)).map fun g =>
        { s with orders := g, deadLetters := s.deadLetters.append p m }
  | .publish true c answered =>
    (s.deadLetters.nextToRecover c).bind fun (p, m) =>
      ((s.deadLetters.append p m).move config.retryAttempts (.ofRecoverer c answered)).map fun g =>
        { s with deadLetters := g }
  | .findByOrderId c =>
    (s.deadLetters.running config.retryAttempts c).bind fun batch =>
      if (s.frames c).calling.isSome then none
      else
        (s.deadLetters.records batch)[(s.frames c).cursor]?.bind fun m =>
          (Pipeline.step rejects s.pipeline (.readDeadLetter (2 * c) m)).bind fun p =>
            if (p.recoveries (2 * c)).isSome then
              some ({ s with pipeline := p }.setFrame c ⟨(s.frames c).cursor, some m⟩)
            else
              (s.deadLetters.move config.retryAttempts (.failed c)).map fun g =>
                { s with pipeline := p, deadLetters := g }.setFrame c Frame.empty
  | .recoverDeadLetter c a =>
    (s.frames c).calling.bind fun m =>
      if recoveryOf a = some (2 * c) then
        (Pipeline.step rejects s.pipeline a).bind fun p =>
          if (p.recoveries (2 * c)).isSome then some { s with pipeline := p }
          else
            match a with
            | .retryThrow _ =>
              (s.deadLetters.move config.retryAttempts (.failed c)).map fun g =>
                { s with pipeline := p, deadLetters := g }.setFrame c Frame.empty
            | _ =>
              some ({ s with
                pipeline := p
                recovered := ⟨m, rowOfMessage m p.db⟩ :: s.recovered }.setFrame c
                  ⟨(s.frames c).cursor + 1, none⟩)
      else none
  | .onDeadLetterReturns c =>
    (s.deadLetters.running config.retryAttempts c).bind fun batch =>
      if (s.frames c).calling.isSome ∨ (s.frames c).cursor < (s.deadLetters.records batch).length
      then none
      else
        (s.deadLetters.move config.retryAttempts (.listened c)).map fun g =>
          { s with deadLetters := g }.setFrame c Frame.empty

/-- Nothing has been sold, nothing has been sent, nobody listens yet. -/
structure Start (s : State) : Prop where
  pipeline : Pipeline.Start s.pipeline
  orders : s.orders = Topic.empty
  deadLetters : s.deadLetters = Topic.empty
  frames : ∀ c, s.frames c = Frame.empty
  recovered : s.recovered = []

/-- A pipeline with nothing sent. -/
def State.init (pipeline : Pipeline.State) : State where
  pipeline := pipeline
  orders := Topic.empty
  deadLetters := Topic.empty
  frames _ := Frame.empty
  recovered := []

theorem start_init {p : Pipeline.State} (h : Pipeline.Start p) : Start (State.init p) :=
  ⟨h, rfl, rfl, fun _ => rfl, rfl⟩

end Hmdp.Delivery
