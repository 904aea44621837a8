import Hmdp.Lib.Machine
import Hmdp.Model.Cancel
import Hmdp.Model.Consumer
import Hmdp.Model.Handoff
import Hmdp.Model.Recovery

/-!
# The seckill pipeline as a machine

The stores and everything in flight between them, and one action for each atomic step: a script,
a MySQL transaction, a Kafka send. A relay works through the tasks of its round and may stop
between any two of them; a message stays on the topic once it is sent, so it is delivered any
number of times and in any order; a transaction that throws changes nothing.

`issued` and `granted` are ghosts: the order ids handed to `seckill.lua` so far, which are never
reused, and the orders it has accepted. Only the freshness check of `seckill` and the batch of
`accept`, whose callers have just been granted their orders, read them.

`rejects` says which rows MySQL refuses by its own integrity checks.
-/

namespace Hmdp.Pipeline

open Hmdp.Lib Hmdp.Model

/-- The stores and what is in flight. -/
structure State where
  redis : Redis
  db : Db
  issued : Finset OrderId
  granted : List Reservation
  /-- what each relay has left to do in its round -/
  relays : ℕ → List RelayTask
  /-- orders accepted in mysql-outbox mode, their handoff still to be completed -/
  acks : List Reservation
  /-- the messages ever sent, dead letters included -/
  kafka : List SeckillOrderMessage
  /-- the calls of the recovery service -/
  recoveries : ℕ → Option Recovery
  /-- the cancellations that have selected their order -/
  cancels : ℕ → Option VoucherOrder

/-- The steps: each script, each transaction, and each statement that others may come between. -/
inductive Action where
  | seckill (call : SeckillCall)
  /-- the activity metadata and the access tokens are written by other features -/
  | configure (activity : VoucherId → ActivityMeta)
      (accessToken : VoucherId → UserId → Option Text)
  | fetch (relay : ℕ) (voucherId : VoucherId) (limit : ℕ) (now : Time)
  | relayTask (relay : ℕ)
  | crash (relay : ℕ)
  | accept (batch : List Reservation) (now : Time)
  | completeHandoff (order : Reservation)
  | claimRelayBatch (ids : List ℕ) (owner : Text) (leaseUntil now : Time)
  | markSentBatch (ids : List ℕ) (owner : Text) (nextCheckTime now : Time)
  | scheduleRetryBatch (ids : List ℕ) (owner : Text) (nextRetryTime : Time) (lastError : Text)
      (now : Time)
  | send (row : OutboxRow) (withOutboxId : Bool)
  | createOrders (tx : Transaction) (messages : List SeckillOrderMessage)
  | readDeadLetter (process : ℕ) (message : SeckillOrderMessage)
  | readManualReview (process : ℕ) (event : OutboxRow)
  | retryLookup (process : ℕ)
  | retryUpdate (process : ℕ) (backoff : RetryBackoff) (reason : Text) (localNow now : Time)
  | retryThrow (process : ℕ)
  | markManualReview (process : ℕ) (reason : Text) (now : Time)
  | selectOrder (process : ℕ) (pick : NewestFirst) (userId : UserId) (voucherId : VoucherId)
  | cancel (process : ℕ)

/-- `cancelVoucherOrder` for a selected order, up to its commit: the writes to MySQL and the
script as one step, or nothing where the call fails or throws. -/
def cancelCommitted (order : VoucherOrder) (redis : Redis) (db : Db) : Option (Redis × Db) :=
  (cancelInTransaction order db).bind fun db' =>
    let cancelled := cancelLua order.voucherId order.userId redis
    if cancelled.1 < 0 then none else some (cancelled.2, db')

/-- One step; `none` where the action is not enabled. -/
def step (rejects : Reservation → Bool) (s : State) : Action → Option State
  | .seckill call =>
    if call.orderId ∈ s.issued then none
    else
      let reply := seckillLua call s.redis
      some { s with
        redis := reply.2
        issued := insert call.orderId s.issued
        granted := if reply.1 = 0 then call.reservation :: s.granted else s.granted }
  | .configure activity accessToken =>
    some { s with redis := { s.redis with activity := activity, accessToken := accessToken } }
  | .fetch i v limit now =>
    match s.relays i with
    | _ :: _ => none
    | [] =>
      let tasks := fetchTasks now v ((s.redis.handoff v).range limit)
      some { s with relays := Function.update s.relays i tasks }
  | .relayTask i =>
    match s.relays i with
    | [] => none
    | task :: rest =>
      match runTask rejects task s.redis s.db with
      | none => some { s with relays := Function.update s.relays i [] }
      | some (more, redis, db) =>
        some { s with
          redis := redis, db := db, relays := Function.update s.relays i (more ++ rest) }
  | .crash i => some { s with relays := Function.update s.relays i [] }
  | .accept batch now =>
    if ∀ r ∈ batch, r ∈ s.granted then
      match insertCommitted rejects (batch.map (SeckillOrderOutboxEvent.pending now)) s.db with
      | .error _ => some s
      | .ok (accepted, db) =>
        some { s with
          db := db, acks := accepted.map SeckillOrderOutboxEvent.reservation ++ s.acks }
    else none
  | .completeHandoff r =>
    if r ∈ s.acks then some { s with redis := completeHandoff r s.redis } else none
  | .claimRelayBatch ids owner leaseUntil now =>
    some { s with db := (claimRelayBatch ids owner leaseUntil now s.db).2 }
  | .markSentBatch ids owner nextCheckTime now =>
    some { s with db := (markSentBatch ids owner nextCheckTime now s.db).2 }
  | .scheduleRetryBatch ids owner nextRetryTime lastError now =>
    some { s with db := (scheduleRetryBatch ids owner nextRetryTime lastError now s.db).2 }
  | .send row withOutboxId =>
    if row ∈ s.db.outbox.rows then some { s with kafka := row.toMessage withOutboxId :: s.kafka }
    else none
  | .createOrders tx messages =>
    if ∀ m ∈ messages, m ∈ s.kafka then
      match createOrders tx messages s.db with
      | .error _ => some s
      | .ok (_, db) => some { s with db := db }
    else none
  | .readDeadLetter i message =>
    if message ∈ s.kafka ∧ (s.recoveries i).isNone then
      match message.orderId.bind fun o => findByOrderId o s.db with
      | none => some s
      | some event =>
        some { s with recoveries := Function.update s.recoveries i (some (.read event true)) }
    else none
  | .readManualReview i event =>
    if event ∈ s.db.outbox.rows ∧ event.status = .manualReview ∧ (s.recoveries i).isNone then
      some { s with recoveries := Function.update s.recoveries i (some (.read event false)) }
    else none
  | .retryLookup i =>
    match s.recoveries i with
    | some (.read event deadLetter) =>
      let looked := Recovery.looked event deadLetter (selectById event.orderId s.db).isSome
      some { s with recoveries := Function.update s.recoveries i (some looked) }
    | _ => none
  | .retryUpdate i backoff reason localNow now =>
    match s.recoveries i with
    | some (.looked event deadLetter orderExists) =>
      let updated := retryUpdate backoff event orderExists reason localNow now s.db
      let rest :=
        if updated.1 then none else (Recovery.looked event deadLetter orderExists).thrown
      some { s with db := updated.2, recoveries := Function.update s.recoveries i rest }
    | _ => none
  | .retryThrow i =>
    match s.recoveries i with
    | some recovery =>
      some { s with recoveries := Function.update s.recoveries i recovery.thrown }
    | none => none
  | .markManualReview i reason now =>
    match s.recoveries i with
    | some (.failed event) =>
      some { s with
        db := (markManualReview event.orderId reason now s.db).2
        recoveries := Function.update s.recoveries i none }
    | _ => none
  | .selectOrder i pick u v =>
    match s.cancels i with
    | some _ => none
    | none =>
      some { s with cancels := Function.update s.cancels i (selectActiveOrder pick u v s.db) }
  | .cancel i =>
    match s.cancels i with
    | none => none
    | some order =>
      match cancelCommitted order s.redis s.db with
      | none => some { s with cancels := Function.update s.cancels i none }
      | some (redis, db) =>
        some { s with
          redis := redis, db := db, cancels := Function.update s.cancels i none }

variable {rejects : Reservation → Bool} {s t : State}

/-- The actions that write to Redis. -/
def Action.writesRedis : Action → Bool
  | .seckill _ | .configure _ _ | .relayTask _ | .completeHandoff _ | .cancel _ => true
  | _ => false

/-- The others leave Redis as it is. -/
theorem step_redis {a : Action} (ha : a.writesRedis = false)
    (hstep : step rejects s a = some t) : t.redis = s.redis := by
  cases a with
  | seckill call => exact absurd ha (by simp [Action.writesRedis])
  | configure activity accessToken => exact absurd ha (by simp [Action.writesRedis])
  | relayTask i => exact absurd ha (by simp [Action.writesRedis])
  | completeHandoff r => exact absurd ha (by simp [Action.writesRedis])
  | cancel i => exact absurd ha (by simp [Action.writesRedis])
  | crash i => cases hstep; rfl
  | claimRelayBatch ids owner leaseUntil now => cases hstep; rfl
  | markSentBatch ids owner nextCheckTime now => cases hstep; rfl
  | scheduleRetryBatch ids owner nextRetryTime lastError now => cases hstep; rfl
  | fetch i v limit now =>
    simp only [step] at hstep
    split at hstep <;> cases hstep
    rfl
  | accept batch now =>
    simp only [step] at hstep
    split at hstep
    · split at hstep <;> cases hstep <;> rfl
    · exact absurd hstep (by simp)
  | send row withOutboxId =>
    simp only [step] at hstep
    split at hstep <;> cases hstep
    rfl
  | createOrders tx messages =>
    simp only [step] at hstep
    split at hstep
    · split at hstep <;> cases hstep <;> rfl
    · exact absurd hstep (by simp)
  | readDeadLetter i message =>
    simp only [step] at hstep
    split at hstep
    · split at hstep <;> cases hstep <;> rfl
    · exact absurd hstep (by simp)
  | readManualReview i event =>
    simp only [step] at hstep
    split at hstep <;> cases hstep
    rfl
  | retryLookup i =>
    simp only [step] at hstep
    split at hstep <;> cases hstep
    rfl
  | retryUpdate i backoff reason localNow now =>
    simp only [step] at hstep
    split at hstep <;> cases hstep
    rfl
  | retryThrow i =>
    simp only [step] at hstep
    split at hstep <;> cases hstep
    rfl
  | markManualReview i reason now =>
    simp only [step] at hstep
    split at hstep <;> cases hstep
    rfl
  | selectOrder i pick u v =>
    simp only [step] at hstep
    split at hstep <;> cases hstep
    rfl

/-- Nothing has been sold yet: no order, no reservation, nothing in flight. -/
structure Start (s : State) : Prop where
  orders : s.db.orders.rows = []
  outbox : s.db.outbox.rows = []
  handoff : ∀ v, (s.redis.handoff v).members = []
  quarantine : s.redis.quarantine = ∅
  accepted : ∀ o, s.redis.accepted o = none
  granted : s.granted = []
  relays : ∀ i, s.relays i = []
  acks : s.acks = []
  kafka : s.kafka = []
  recoveries : ∀ i, s.recoveries i = none
  cancels : ∀ i, s.cancels i = none

/-- Voucher 7 is on sale with `n` units, and nothing has been sold. -/
def onSale (n : ℤ) : State where
  redis := { Redis.empty with
    stock := fun v => if v = 7 then some n else none
    activity := fun v => if v = 7 then ⟨some 0, some 100, some 1⟩ else ⟨none, none, none⟩ }
  db := { Db.empty with stock := fun v => if v = 7 then some n else none }
  issued := ∅
  granted := []
  relays _ := []
  acks := []
  kafka := []
  recoveries _ := none
  cancels _ := none

theorem start_onSale (n : ℤ) : Start (onSale n) :=
  ⟨rfl, rfl, fun _ => rfl, rfl, fun _ => rfl, rfl, fun _ => rfl, rfl, rfl, fun _ => rfl,
    fun _ => rfl⟩

/-- User `u` asks for voucher 7 under order id `o`. -/
def buy (o : OrderId) (u : UserId) : Action := .seckill ⟨7, u, o, 50, [], false⟩

/-- A relay takes the order at the head of the handoff set over to the outbox. -/
def relayOne : List Action := [.fetch 0 7 1 0, .relayTask 0, .relayTask 0]

/-- The message of a freshly inserted outbox row. -/
def rowOf (id : ℕ) (o : OrderId) (u : UserId) : OutboxRow :=
  { SeckillOrderOutboxEvent.pending 0 ⟨o, 7, u, false⟩ with id := id }

/-- The transaction at time 0, taking the first of the newest rows. -/
def atZero : Transaction := ⟨NewestFirst.first, fun _ => 0, 0⟩

end Hmdp.Pipeline
