import Hmdp.Invalidation.Retries
import Hmdp.Lib.ConsumerGroup
import Hmdp.Shop.Step

/-!
# Shop invalidations from the write to every JVM

The shop caches of `Shop/Step.lean`, the outbox of `Invalidation/Retries.lean` and the topic between
them as one machine:

* a write inserts its event into the outbox in its own transaction
  (`ShopCacheInvalidationPublisher.publish`);
* the relays send the events of the outbox to the topic, keyed by the shop; where the answer does
  not come in time the record may have been written all the same;
* every JVM has a consumer group of its own and reads the topic from the beginning.
  `ShopCacheInvalidationKafkaConsumer.onMessage` evicts under the shop's write lock and
  acknowledges; it is retried `retry-attempts` times, then the record is published to the
  dead-letter topic, to which nobody listens, by `SynchronousDeadLetterPublishingRecoverer`.

The container hands the records over one at a time: after a failure it seeks back to the failed one
and all that were polled with it. A listener runs on the thread of its member.
-/

namespace Hmdp.Broadcast

open Hmdp.Lib Hmdp.Lib.ConsumerGroup Hmdp.Model

/-- The members of each JVM's group, and the threads that serve requests. -/
abbrev Thread (Jvm Worker : Type) := (Jvm × ℕ) ⊕ Worker

/-- What is configured, and the broker's partitioner. -/
structure Config where
  relay : InvalidationRelayConfig
  /-- `hmdp.kafka.shop-cache.retry-attempts` -/
  retryAttempts : ℕ
  /-- the partition of a key, `String.valueOf(shopId)` -/
  partitionOf : ShopId → ℕ

variable {Worker Jvm Entity Relay : Type}

/-- The shop machine and the outbox machine, with a topic between them. -/
structure State (Worker Jvm Entity Relay : Type) where
  shops : Shop.State (Thread Jvm Worker) Jvm Entity
  outbox : Invalidation.State Relay
  /-- the topic as the group of each JVM has it; the records are the same for all -/
  topics : Jvm → Topic InvalidationMessage
  /-- `hmdp.kafka.shop-cache.dlt-topic` -/
  deadLetters : List InvalidationMessage
  /-- ghost: which write of its shop an event has been inserted with -/
  writes : Text → ℕ

/-- The steps of the composed machine. -/
inductive Action (Worker Jvm Entity Relay : Type) where
  /-- a statement of a request, or an expiry -/
  | request (a : Shop.Action (Thread Jvm Worker) Jvm Entity)
  /-- the transaction of a write commits, the event in it -/
  | commit (worker : Worker) (id : ℕ) (eventId : Text) (now : Time)
  | relay (a : Invalidation.Action Relay)
  /-- the next event is sent; `written` matters where the answer does not come -/
  | send (relay : Relay) (failure : Option JavaException) (written : Bool)
  /-- the container or the broker moves the group of the JVM -/
  | group (jvm : Jvm) (a : Move InvalidationMessage)
  /-- `onMessage` calls `evict` for the record of its member -/
  | onMessage (jvm : Jvm) (member : ℕ)
  /-- the next of that call, or an exception in it -/
  | evict (jvm : Jvm) (member : ℕ) (a : Shop.Action (Thread Jvm Worker) Jvm Entity)
  /-- the recoverer publishes the record of a member -/
  | publish (jvm : Jvm) (member : ℕ) (answered : Bool)

/-- The thread an action is of. -/
def actor : Shop.Action (Thread Jvm Worker) Jvm Entity → Option (Thread Jvm Worker)
  | .start th _ _ _ => some th
  | .acquire th => some th
  | .next th _ => some th
  | .throw th => some th
  | .expireLocal _ _ => none
  | .expireRedis _ => none

/-- The next statement is the transaction of a write. -/
def atCommit : Shop.Work Entity → Bool
  | .update _ .commit => true
  | .saveShop _ .commit => true
  | _ => false

/-- The action commits a write. -/
def commits (s : Shop.State (Thread Jvm Worker) Jvm Entity) :
    Shop.Action (Thread Jvm Worker) Jvm Entity → Bool
  | .next th _ => (s.tasks th).any fun task => atCommit task.work
  | _ => false

/-- A call of `evict`. -/
def evicts : Shop.Action (Thread Jvm Worker) Jvm Entity → Bool
  | .start _ _ _ (.evict _) => true
  | _ => false

/-- The actions of requests, and the expiries. -/
def ofRequest (s : Shop.State (Thread Jvm Worker) Jvm Entity)
    (a : Shop.Action (Thread Jvm Worker) Jvm Entity) : Bool :=
  (actor a).all Sum.isRight && !commits s a && !evicts a

/-- The statements of a relay other than its sends; insertions are the publisher's. -/
def ofRelay : Invalidation.Action Relay → Bool
  | .insert _ _ _ _ _ _ => false
  | .send _ _ => false
  | _ => true

/-- The event a relay is about to send. -/
def nextEvent : InvalidationRelayPhase → Option InvalidationEvent
  | .dispatching (e :: _) => some e
  | _ => none

/-- The moves of a container; a poll hands over one record. -/
def ofContainer : Move InvalidationMessage → Bool
  | .append _ _ => false
  | .listened _ => false
  | .failed _ => false
  | .recovered _ => false
  | .poll _ batch => (offsets batch).length = 1
  | _ => true

/-- An action of a call under way. -/
def ofCall : Shop.Action (Thread Jvm Worker) Jvm Entity → Bool
  | .acquire _ => true
  | .next _ _ => true
  | .throw _ => true
  | _ => false

/-- How the listener of a member ends, after the action that ended its call. -/
def listenerEnds (c : ℕ) :
    Shop.Action (Thread Jvm Worker) Jvm Entity → Move InvalidationMessage
  | .throw _ => .failed c
  | _ => .listened c

section

variable [DecidableEq Worker] [DecidableEq Jvm] [DecidableEq Relay]

namespace State

/-- The group of one JVM moves. -/
def setTopic (s : State Worker Jvm Entity Relay) (jvm : Jvm) (g : Topic InvalidationMessage) :
    State Worker Jvm Entity Relay :=
  { s with topics := Function.update s.topics jvm g }

/-- A record more, for the group of every JVM. -/
def broadcast (s : State Worker Jvm Entity Relay) (p : ℕ) (m : InvalidationMessage) :
    State Worker Jvm Entity Relay :=
  { s with topics := fun jvm => (s.topics jvm).append p m }

/-- A member of a JVM's group is gone, with the call it may be in. -/
def leave (s : State Worker Jvm Entity Relay) (jvm : Jvm) (c : ℕ) :
    State Worker Jvm Entity Relay :=
  { s with shops := (Shop.step s.shops (.throw (.inl (jvm, c)))).getD s.shops }

end State

/-- One step; `none` where the action is not enabled. -/
def step (config : Config) (s : State Worker Jvm Entity Relay) :
    Action Worker Jvm Entity Relay → Option (State Worker Jvm Entity Relay)
  | .request a =>
    if ofRequest s.shops a then (Shop.step s.shops a).map fun x => { s with shops := x } else none
  | .commit w id eventId now =>
    (s.shops.tasks (.inr w)).bind fun task =>
      if atCommit task.work then
        (Shop.step s.shops (.next (.inr w) true)).bind fun x =>
          let version := (x.store.history task.shopId).length
          if version = (s.shops.store.history task.shopId).length then
            some { s with shops := x }
          else if ∀ r ∈ s.outbox.table.rows, r.eventId ≠ eventId then
            (Invalidation.step config.relay s.outbox (.insert "shop-changed".toList id eventId
              task.shopId (some "shop-changed".toList) now)).map fun o =>
                { s with
                  shops := x, outbox := o
                  writes := Function.update s.writes eventId version }
          else none
      else none
  | .relay a =>
    if ofRelay a then
      (Invalidation.step config.relay s.outbox a).map fun o => { s with outbox := o }
    else none
  | .send relay failure written =>
    (Invalidation.step config.relay s.outbox (.send relay failure)).map fun o =>
      match nextEvent (s.outbox.relays relay) with
      | some e =>
        if failure.isNone || written then
          { s.broadcast (config.partitionOf e.message.targetId) e.message with outbox := o }
        else { s with outbox := o }
      | none => { s with outbox := o }
  | .group jvm a =>
    if ofContainer a then
      match a with
      | .leave c =>
        ((s.topics jvm).move config.retryAttempts (.leave c)).map fun g =>
          (s.leave jvm c).setTopic jvm g
      | a =>
        if ∃ c ∈ a.member, (s.shops.tasks (.inl (jvm, c))).isSome = true then none
        else ((s.topics jvm).move config.retryAttempts a).map fun g => s.setTopic jvm g
    else none
  | .onMessage jvm c =>
    ((s.topics jvm).running config.retryAttempts c).bind fun batch =>
      match offsets batch with
      | [o] =>
        ((s.topics jvm).record o).bind fun m =>
          (Shop.step s.shops (.start (.inl (jvm, c)) jvm m.targetId
            (.evict (s.writes m.eventId)))).map fun x => { s with shops := x }
      | _ => none
  | .evict jvm c a =>
    if ofCall a ∧ actor a = some (.inl (jvm, c)) then
      (Shop.step s.shops a).bind fun x =>
        match x.tasks (.inl (jvm, c)) with
        | some _ => some { s with shops := x }
        | none =>
          ((s.topics jvm).move config.retryAttempts (listenerEnds c a)).map fun g =>
            { s with shops := x }.setTopic jvm g
    else none
  | .publish jvm c answered =>
    ((s.topics jvm).nextToRecover c).bind fun (_, m) =>
      ((s.topics jvm).move config.retryAttempts (.ofRecoverer c answered)).map fun g =>
        { s with deadLetters := m :: s.deadLetters }.setTopic jvm g

end

/-- Any caches and any rows, no event, nothing sent. -/
def State.init (localCache : Jvm → ShopId → Option Entity)
    (redis : ShopId → Option (Option Entity)) (db : ShopId → Option Entity) :
    State Worker Jvm Entity Relay where
  shops := Shop.State.init localCache redis db
  outbox := Invalidation.State.start
  topics _ := Topic.empty
  deadLetters := []
  writes _ := 0

end Hmdp.Broadcast
