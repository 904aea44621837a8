import Hmdp.Lib.LinkedSet
import Hmdp.Model.Mysql
import Hmdp.Model.Redis

/-!
# `SeckillOrderReconciliationService`

A call of `reconcileVoucher` is a program counter with the call's local variables (`Phase`); one
step of it runs the next command, a select or a Redis command, over the stores as they are at that
moment (`Rebuild.advance`). The `finally`-like path, deleting the staging set and unlocking, is two
phases of its own.

`EXPIRE` and `RENAME` change no value here. The expiry times they set or hand on, and what runs out
when, are kept beside the stores by the machines that run a call.
-/

namespace Hmdp.Model

open Hmdp.Lib

/-! ## The staging set -/

/-- A staging set is written, renamed or gone. -/
def Redis.setStaging (s : Redis) (v : VoucherId) (token : Text) (staging : Option Staging) :
    Redis :=
  { s with staging := Function.update s.staging v (Function.update (s.staging v) token staging) }

/-- `opsForSet().add` of the sentinel. -/
def Redis.addSentinel (s : Redis) (v : VoucherId) (token : Text) : Redis :=
  s.setStaging v token (some ⟨true, s.staged v token⟩)

/-- `opsForSet().add` of users. -/
def Redis.addStaged (s : Redis) (v : VoucherId) (token : Text) (users : List UserId) : Redis :=
  s.setStaging v token
    (some ⟨((s.staging v token).map Staging.sentinel).getD false,
      s.staged v token ∪ users.toFinset⟩)

@[simp] theorem Redis.staged_addStaged (s : Redis) (v : VoucherId) (token : Text)
    (users : List UserId) :
    (s.addStaged v token users).staged v token = s.staged v token ∪ users.toFinset := by
  simp [Redis.addStaged, Redis.setStaging, Redis.staged]

/-- The other staging sets are left alone. -/
theorem Redis.staged_setStaging_of_ne (s : Redis) {v w : VoucherId} {token token' : Text}
    (h : w = v → token' ≠ token) (staging : Option Staging) :
    (s.setStaging v token staging).staged w token' = s.staged w token' := by
  by_cases hw : w = v
  · have hne := h hw
    subst hw
    simp [Redis.setStaging, Redis.staged, hne]
  · simp [Redis.setStaging, Redis.staged, hw]

/-- Where `reconcileVoucher` stands, with its local variables. -/
inductive Phase where
  /-- the recovery key is set; `findUnpersistedEvents` is next -/
  | locked
  /-- `findActiveUserIds` is next -/
  | outboxRead (reservedOrderIds : LinkedSet OrderId) (purchasedUserIds : LinkedSet UserId)
  /-- `findAll` is next -/
  | ordersRead (reservedOrderIds : LinkedSet OrderId) (purchasedUserIds : LinkedSet UserId)
  /-- in the loop of `mergeHandoffReservations`, with the members it has not looked at -/
  | merging (reservedOrderIds : LinkedSet OrderId) (purchasedUserIds : LinkedSet UserId)
      (members : List Text) (handoffOnly : ℕ)
  /-- the delete of the staging set is next -/
  | renewed (purchasedUserIds : LinkedSet UserId) (expectedStock : ℤ)
  /-- the sentinel is next -/
  | cleared (purchasedUserIds : LinkedSet UserId) (expectedStock : ℤ)
  /-- the `EXPIRE` of the staging set is next -/
  | sentinelAdded (userIds : List UserId) (expectedStock : ℤ)
  /-- in the loop of `writeUsersInBatches`; after its last user the rebuild script is next -/
  | writing (userIds : List UserId) (expectedStock : ℤ)
  /-- a batch is written; the renewal is next -/
  | written (userIds : List UserId) (expectedStock : ℤ)
  /-- an exception is caught; the delete of the staging set is next -/
  | failed
  /-- the unlock script is next -/
  | unstaged

/-- A call of `reconcileVoucher`; `mysqlStock` is the stock of the voucher it was given. -/
structure Rebuild where
  voucherId : VoucherId
  mysqlStock : ℤ
  token : Text
  phase : Phase

/-- Where a call stands after a command. -/
inductive Progress where
  | next (phase : Phase)
  /-- it returns -/
  | done
  /-- it throws -/
  | thrown

/-- `renewRecoveryLease`. -/
def Rebuild.renewRecoveryLease (c : Rebuild) (redis : Redis) (next : Phase) : Progress :=
  if renewRecovery c.voucherId c.token redis = 1 then .next next else .next .failed

theorem renewed_or_failed {c : Rebuild} {redis : Redis} {next phase : Phase}
    (h : c.renewRecoveryLease redis next = .next phase) : phase = next ∨ phase = .failed := by
  unfold Rebuild.renewRecoveryLease at h
  split at h <;> cases h
  · exact Or.inl rfl
  · exact Or.inr rfl

/-- The next command of the call. -/
def Rebuild.advance (batchSize : ℕ) (c : Rebuild) (redis : Redis) (db : Db) : Redis × Progress :=
  match c.phase with
  | .locked =>
    let unpersisted := findUnpersistedEvents c.voucherId db
    (redis, .next (.outboxRead (LinkedSet.empty.addAll (unpersisted.map fun e => e.orderId))
      (LinkedSet.empty.addAll (unpersisted.map fun e => e.userId))))
  | .outboxRead reservedOrderIds purchasedUserIds =>
    let activeUsers := findActiveUserIds c.voucherId db
    (redis, .next (.ordersRead reservedOrderIds (purchasedUserIds.addAll activeUsers)))
  | .ordersRead reservedOrderIds purchasedUserIds =>
    let members := (redis.handoff c.voucherId).members
    (redis, .next (.merging reservedOrderIds purchasedUserIds members 0))
  | .merging reservedOrderIds purchasedUserIds (member :: members) handoffOnly =>
    match parseMember c.voucherId member with
    | none => (redis, .next (.merging reservedOrderIds purchasedUserIds members handoffOnly))
    | some event =>
      let purchasedUserIds := purchasedUserIds.add event.userId
      if event.orderId ∈ reservedOrderIds.elements then
        (redis, .next (.merging reservedOrderIds purchasedUserIds members handoffOnly))
      else if (findByOrderId event.orderId db).isNone then
        (redis, .next (.merging reservedOrderIds purchasedUserIds members (handoffOnly + 1)))
      else (redis, .next (.merging reservedOrderIds purchasedUserIds members handoffOnly))
  | .merging reservedOrderIds purchasedUserIds [] handoffOnly =>
    let expectedStock := max 0 (c.mysqlStock - reservedOrderIds.size - handoffOnly)
    (redis, c.renewRecoveryLease redis (.renewed purchasedUserIds expectedStock))
  | .renewed purchasedUserIds expectedStock =>
    (redis.setStaging c.voucherId c.token none, .next (.cleared purchasedUserIds expectedStock))
  | .cleared purchasedUserIds expectedStock =>
    (redis.addSentinel c.voucherId c.token,
      .next (.sentinelAdded purchasedUserIds.elements expectedStock))
  | .sentinelAdded userIds expectedStock => (redis, .next (.writing userIds expectedStock))
  | .writing [] expectedStock =>
    let rebuilt := rebuildLua c.voucherId c.token expectedStock redis
    (rebuilt.2, if rebuilt.1 = 1 then .done else .next .failed)
  | .writing userIds expectedStock =>
    (redis.addStaged c.voucherId c.token (userIds.take batchSize),
      .next (.written (userIds.drop batchSize) expectedStock))
  | .written userIds expectedStock =>
    (redis, c.renewRecoveryLease redis (.writing userIds expectedStock))
  | .failed => (redis.setStaging c.voucherId c.token none, .next .unstaged)
  | .unstaged => ((unlockRecovery c.voucherId c.token redis).2, .thrown)

/-- What the outbox read collects. -/
theorem mem_reservedOrderIds {v : VoucherId} {db : Db} {o : OrderId} :
    o ∈ (LinkedSet.empty.addAll ((findUnpersistedEvents v db).map fun e => e.orderId)).elements ↔
      ∃ e ∈ db.outbox.rows, e.voucherId = v ∧ e.status ≠ .completed ∧
        db.hasOrder e.orderId = false ∧ e.orderId = o := by
  simp only [LinkedSet.mem_addAll, LinkedSet.empty, List.not_mem_nil, or_false, List.mem_map,
    findUnpersistedEvents, List.mem_filter, Bool.and_eq_true, decide_eq_true_eq,
    Bool.not_eq_true', and_assoc]

/-- The lookup of a member writes nothing. -/
theorem Rebuild.advance_merge (batchSize : ℕ) {v : VoucherId} {n : ℤ} {token : Text}
    {reservedOrderIds : LinkedSet OrderId} {purchasedUserIds : LinkedSet UserId} {member : Text}
    {members : List Text} {handoffOnly : ℕ} (redis : Redis) (db : Db) :
    (Rebuild.advance batchSize ⟨v, n, token, .merging reservedOrderIds purchasedUserIds
      (member :: members) handoffOnly⟩ redis db).1 = redis := by
  simp only [Rebuild.advance]
  split
  · rfl
  · split
    · rfl
    · split <;> rfl

/-- An exception of the next command: caught inside the `try`, it escapes from the handler. -/
def Phase.throw : Phase → Progress
  | .failed | .unstaged => .thrown
  | _ => .next .failed

/-- What the next command of a call can do to Redis: write its own staging set, publish it, or
delete its recovery key. -/
inductive Rebuild.Writes (c : Rebuild) (redis redis' : Redis) : Prop
  | nothing (same : redis' = redis)
  | staged (staging : Option Staging)
      (write : redis' = redis.setStaging c.voucherId c.token staging)
  | rebuilt (expectedStock : ℤ) (phase : c.phase = .writing [] expectedStock)
      (held : redis.recovery c.voucherId = some c.token)
      (write : redis' = { redis with
        stock := Function.update redis.stock c.voucherId (some expectedStock)
        purchased := Function.update redis.purchased c.voucherId
          (redis.staged c.voucherId c.token)
        staging := Function.update redis.staging c.voucherId
          (Function.update (redis.staging c.voucherId) c.token none)
        recovery := Function.update redis.recovery c.voucherId none })
  | unlocked (held : redis.recovery c.voucherId = some c.token)
      (write : redis' = { redis with
        recovery := Function.update redis.recovery c.voucherId none })

theorem Rebuild.advance_writes (batchSize : ℕ) (c : Rebuild) (redis : Redis) (db : Db) :
    c.Writes redis (c.advance batchSize redis db).1 := by
  unfold Rebuild.advance
  split
  · exact .nothing rfl
  · exact .nothing rfl
  · exact .nothing rfl
  · split
    · exact .nothing rfl
    · split
      · exact .nothing rfl
      · split <;> exact .nothing rfl
  · exact .nothing rfl
  · exact .staged _ rfl
  · exact .staged _ rfl
  · exact .nothing rfl
  · rename_i expectedStock hphase
    rcases rebuildLua_cases c.voucherId c.token expectedStock redis with ⟨-, heq⟩ | ⟨hheld, heq⟩
    · exact .nothing (by rw [heq])
    · exact .rebuilt expectedStock hphase hheld (by rw [heq])
  · exact .staged _ rfl
  · exact .nothing rfl
  · exact .staged _ rfl
  · unfold unlockRecovery
    split
    · rename_i hheld
      exact .unlocked hheld rfl
    · exact .nothing rfl

/-- A call that goes on has not published. -/
theorem Rebuild.stock_of_next {batchSize : ℕ} {c : Rebuild} {redis : Redis} {db : Db}
    {phase : Phase} (h : (c.advance batchSize redis db).2 = .next phase) :
    (c.advance batchSize redis db).1.stock = redis.stock := by
  cases c.advance_writes batchSize redis db with
  | nothing same => rw [same]
  | staged staging write =>
    rw [write]
    rfl
  | rebuilt expectedStock hphase held write =>
    obtain ⟨v, S, token, here⟩ := c
    obtain rfl : here = .writing [] expectedStock := hphase
    have held : redis.recovery v = some token := held
    simp only [Rebuild.advance, rebuildLua, held, ne_eq, not_true_eq_false, if_false,
      if_true] at h
    exact absurd h (by simp)
  | unlocked _ write => rw [write]

/-- The call returns right after its rebuild script, which returned 1. -/
theorem Rebuild.advance_done {batchSize : ℕ} {c : Rebuild} {redis : Redis} {db : Db}
    (h : (c.advance batchSize redis db).2 = .done) :
    (∃ expectedStock, c.phase = .writing [] expectedStock) ∧
      redis.recovery c.voucherId = some c.token := by
  have hrenew : ∀ next, c.renewRecoveryLease redis next ≠ .done := by
    intro next
    unfold Rebuild.renewRecoveryLease
    split <;> simp
  unfold Rebuild.advance at h
  split at h
  · exact absurd h (by simp)
  · exact absurd h (by simp)
  · exact absurd h (by simp)
  · split at h
    · exact absurd h (by simp)
    · dsimp only at h
      split at h
      · exact absurd h (by simp)
      · split at h <;> exact absurd h (by simp)
  · exact absurd h (hrenew _)
  · exact absurd h (by simp)
  · exact absurd h (by simp)
  · exact absurd h (by simp)
  · rename_i expectedStock hphase
    rcases rebuildLua_cases c.voucherId c.token expectedStock redis with ⟨-, heq⟩ | ⟨hheld, -⟩
    · rw [heq] at h
      exact absurd h (by simp)
    · exact ⟨⟨expectedStock, hphase⟩, hheld⟩
  · exact absurd h (by simp)
  · exact absurd h (hrenew _)
  · exact absurd h (by simp)
  · exact absurd h (by simp)

end Hmdp.Model
