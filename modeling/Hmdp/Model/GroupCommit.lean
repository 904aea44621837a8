import Hmdp.Model.Handoff

/-!
# The group commit of `SeckillOrderOutboxService`

`accept` offers a `PendingAcceptance` to the queue and waits for its result; the writer threads
(`runWriter`) take requests from the queue, commit a batch of them with one `insertCommitted` and
complete their results one by one; `shutdown` stops and interrupts the writers, joins them with a
time limit and fails what is left in the queue. Every blocking point and every completed result is
a step of its own, so the threads interleave as they like. The durations only decide which of two
steps comes first: a poll or a join may end at any time.

A request is known by its number in the order of the offers. An `accept` that finds no room in
time throws and leaves nothing; one that stops waiting leaves its request where it is.

An interrupt sets the flag of the thread. A poll that finds it set throws, and the `catch` of
`runWriter` forgets the batch the thread has collected; an interrupt that comes when the poll is
over its check leaves the poll to return. `catch (RuntimeException e)` does not catch an `Error`,
which ends the thread.
-/

namespace Hmdp.GroupCommit

open Hmdp.Lib Hmdp.Model

/-! ## Requests and results -/

/-- What a result completes exceptionally with. -/
inductive Failure where
  /-- an exception `insertCommitted` throws itself -/
  | refused (e : OutboxError)
  /-- the database has failed -/
  | database
  /-- `秒杀订单Outbox提交结果缺失，orderId=` -/
  | missing (orderId : OrderId)
  /-- `应用关闭，Outbox请求未提交` -/
  | shutdown
  deriving DecidableEq

/-- The value of a `CompletableFuture`. -/
inductive Result where
  | event (e : SeckillOrderOutboxEvent)
  | exception (failure : Failure)
  deriving DecidableEq

/-- A request in the queue, with the future its caller waits for. -/
structure PendingAcceptance where
  id : ℕ
  event : SeckillOrderOutboxEvent
  deriving DecidableEq

/-- How a call of `insertCommitted` ends; where it does not return, the database may have committed
it. -/
inductive Reply where
  | returns
  | runtimeException (applied : Bool)
  | error (applied : Bool)
  deriving DecidableEq

/-! ## The threads -/

/-- The arguments of the constructor that matter for the order of steps. -/
structure Config where
  acceptBatchSize : ℤ
  acceptQueueCapacity : ℤ
  acceptWriterCount : ℤ

/-- `acceptBatchSize`, at least 1. -/
def Config.batchSize (c : Config) : ℕ := (max 1 c.acceptBatchSize).toNat

/-- The capacity of the queue. -/
def Config.capacity (c : Config) : ℕ :=
  (max (max 1 c.acceptBatchSize) c.acceptQueueCapacity).toNat

/-- `acceptWriterCount`, at least 1. -/
def Config.writerCount (c : Config) : ℕ := (max 1 c.acceptWriterCount).toNat

/-- Where a writer is in `runWriter`. -/
inductive Phase where
  /-- at the condition of the `while` -/
  | loop
  /-- in `queue.poll(100, MILLISECONDS)` -/
  | polling
  /-- in the inner loop -/
  | collecting (batch : List PendingAcceptance)
  /-- before `insertCommitted` -/
  | committing (batch : List PendingAcceptance)
  /-- in the loop of `commit`, with what `insertCommitted` has returned -/
  | completing (batch todo : List PendingAcceptance) (committed : List SeckillOrderOutboxEvent)
  /-- in the loop of `fail` -/
  | failing (todo : List PendingAcceptance) (failure : Failure)
  | terminated
  deriving DecidableEq

/-- A writer thread. -/
structure Writer where
  phase : Phase
  interrupted : Bool
  deriving DecidableEq

/-- Where the thread of `shutdown` is. -/
inductive Shutdown where
  | notCalled
  /-- the writers before `next` are interrupted -/
  | interrupting (next : ℕ)
  | draining
  /-- the last `poll` has found the queue empty, after so many offers -/
  | drained (offers : ℕ)
  deriving DecidableEq

/-- The queue, the writers, the futures and the tables. -/
structure State where
  running : Bool
  queue : List PendingAcceptance
  writers : ℕ → Writer
  shutdown : Shutdown
  results : ℕ → Option Result
  /-- the events of all requests that were offered, in order -/
  offers : List SeckillOrderOutboxEvent
  db : Db

/-- After the constructor. -/
def initial (db : Db) : State where
  running := true
  queue := []
  writers _ := ⟨.loop, false⟩
  shutdown := .notCalled
  results _ := none
  offers := []
  db := db

/-! ## The steps -/

/-- What a writer does next. -/
inductive WriterAction where
  /-- the condition of the `while` -/
  | enter
  /-- a poll returns a request -/
  | take
  /-- a poll returns `null`, or the inner loop ends -/
  | close
  /-- a poll throws `InterruptedException` -/
  | throwInterrupted
  | insertCommitted (reply : Reply)
  /-- one turn of the loop of `commit` or of `fail` -/
  | answer
  deriving DecidableEq

/-- The steps of the callers, the writers and the shutdown. -/
inductive Action where
  /-- `queue.offer` of `accept` succeeds -/
  | offer (request : Reservation) (now : Time)
  | writer (w : ℕ) (action : WriterAction)
  /-- somebody interrupts a writer -/
  | interrupt (w : ℕ)
  /-- `shutdown` stores `running = false` -/
  | shutdown
  /-- `shutdown` interrupts the next writer -/
  | interruptNext
  /-- the joins are over -/
  | join
  /-- one `poll` of the drain -/
  | drain
  /-- a transaction of another service; none deletes an outbox row or changes what it is for -/
  | database (db : Db)

/-- One writer changes. -/
def State.setWriter (s : State) (w : ℕ) (writer : Writer) : State :=
  { s with writers := Function.update s.writers w writer }

/-- One writer goes on, its interrupt flag unchanged. -/
def State.setPhase (s : State) (w : ℕ) (phase : Phase) : State :=
  s.setWriter w { s.writers w with phase := phase }

/-- `complete` and `completeExceptionally`: only the first takes effect. -/
def State.complete (s : State) (id : ℕ) (result : Result) : State :=
  match s.results id with
  | some _ => s
  | none => { s with results := Function.update s.results id (some result) }

/-- `insertCommitted` in the batch writer's transaction. -/
def State.commit (rejects : Reservation → Bool) (s : State) (w : ℕ)
    (batch : List PendingAcceptance) (reply : Reply) : State :=
  let result := insertCommitted rejects (batch.map PendingAcceptance.event) s.db
  match reply with
  | .returns =>
    let t := { s with db := transactional result s.db }
    match result with
    | .ok (committed, _) => t.setPhase w (.completing batch batch committed)
    | .error e => t.setPhase w (.failing batch (.refused e))
  | .runtimeException applied =>
    { s with db := if applied then transactional result s.db else s.db }.setPhase w
      (.failing batch .database)
  | .error applied =>
    { s with db := if applied then transactional result s.db else s.db }.setPhase w .terminated

/-- A poll that does not block returns the head of the queue. -/
def State.poll (s : State) (w : ℕ) (batch : List PendingAcceptance) : Option State :=
  match s.queue with
  | [] => none
  | p :: queue => some ({ s with queue := queue }.setPhase w (.collecting (batch ++ [p])))

/-- The `catch (InterruptedException e)`: the flag is set again while the service runs. -/
def State.catchInterrupted (s : State) (w : ℕ) : Option State :=
  if (s.writers w).interrupted then some (s.setWriter w ⟨.loop, s.running⟩) else none

/-- A step of `runWriter`; `none` where the thread is not at such a step. -/
def writerStep (c : Config) (rejects : Reservation → Bool) (s : State) (w : ℕ)
    (action : WriterAction) : Option State :=
  match (s.writers w).phase, action with
  | .loop, .enter =>
    some (s.setPhase w (if s.running ∨ s.queue ≠ [] then .polling else .terminated))
  | .polling, .take => s.poll w []
  | .polling, .close => if s.queue = [] then some (s.setPhase w .loop) else none
  | .polling, .throwInterrupted => s.catchInterrupted w
  | .collecting batch, .take => if batch.length < c.batchSize then s.poll w batch else none
  | .collecting batch, .close => some (s.setPhase w (.committing batch))
  | .collecting batch, .throwInterrupted =>
    if batch.length < c.batchSize then s.catchInterrupted w else none
  | .committing batch, .insertCommitted reply => some (s.commit rejects w batch reply)
  | .completing _ [] _, .answer => some (s.setPhase w .loop)
  | .completing batch (p :: todo) committed, .answer =>
    match committed.find? fun e => decide (e.orderId = p.event.orderId) with
    | some e => some ((s.complete p.id (.event e)).setPhase w (.completing batch todo committed))
    | none => some (s.setPhase w (.failing batch (.missing p.event.orderId)))
  | .failing [] _, .answer => some (s.setPhase w .loop)
  | .failing (p :: todo) failure, .answer =>
    some ((s.complete p.id (.exception failure)).setPhase w (.failing todo failure))
  | _, _ => none

/-- No row of the outbox is lost or stands for something else. -/
def keepsOutbox (db db' : Db) : Prop :=
  ∀ row ∈ db.outbox.rows, ∃ row' ∈ db'.outbox.rows,
    row'.reservation = row.reservation ∧ row'.eventId = row.eventId

instance (db db' : Db) : Decidable (keepsOutbox db db') :=
  inferInstanceAs (Decidable (∀ row ∈ db.outbox.rows, ∃ row' ∈ db'.outbox.rows,
    row'.reservation = row.reservation ∧ row'.eventId = row.eventId))

/-- One step; `none` where the action is not enabled. -/
def step (c : Config) (rejects : Reservation → Bool) (s : State) : Action → Option State
  | .offer request now =>
    if s.queue.length < c.capacity then
      let event := SeckillOrderOutboxEvent.pending now request
      some { s with
        queue := s.queue ++ [⟨s.offers.length, event⟩]
        offers := s.offers ++ [event] }
    else none
  | .writer w action => if w < c.writerCount then writerStep c rejects s w action else none
  | .interrupt w => some (s.setWriter w ⟨(s.writers w).phase, true⟩)
  | .shutdown =>
    if s.shutdown = .notCalled then
      some { s with running := false, shutdown := .interrupting 0 }
    else none
  | .interruptNext =>
    match s.shutdown with
    | .interrupting next =>
      if next < c.writerCount then
        some { s.setWriter next ⟨(s.writers next).phase, true⟩ with
          shutdown := .interrupting (next + 1) }
      else none
    | _ => none
  | .join =>
    match s.shutdown with
    | .interrupting next =>
      if next < c.writerCount then none else some { s with shutdown := .draining }
    | _ => none
  | .drain =>
    if s.shutdown = .draining then
      match s.queue with
      | [] => some { s with shutdown := .drained s.offers.length }
      | p :: queue => some ({ s with queue := queue }.complete p.id (.exception .shutdown))
    else none
  | .database db => if keepsOutbox s.db db then some { s with db := db } else none

end Hmdp.GroupCommit
