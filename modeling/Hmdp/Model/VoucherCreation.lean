import Hmdp.Model.Mysql
import Hmdp.Model.Redis
import Hmdp.Model.VoucherCache

/-!
# `VoucherServiceImpl.addSeckillVoucher`

The call inserts its two rows, registers the compensation and writes to Redis, one command at a
time; the transaction commits when it returns and is rolled back when it throws. Whatever
`afterCompletion` is not told to be a commit runs the compensation, `deleteVoucher`, whose own
exception is logged. A commit that throws may have been carried out.

The insert gives the voucher a new id, so a voucher is created once; the rows are visible to
others from the commit on. A call whose checks or whose inserts fail has written nothing and is
left out, as are the statements after the commit (the reminder).

`stockKey` and `hash` are ghosts: the keys the call has written and nobody has removed since.
-/

namespace Hmdp.Model

/-- The fields of a `Voucher` request that are checked or written to Redis. -/
structure Voucher where
  stock : Option ℤ
  beginTime : Option Time
  endTime : Option Time
  status : Option ℤ
  deriving DecidableEq

/-- A voucher that has passed `validateNewSeckillVoucher`. -/
structure NewVoucher where
  stock : ℤ
  activity : Activity
  nonneg : 0 ≤ stock
  ordered : activity.beginTime < activity.endTime
  deriving DecidableEq

/-- `validateNewSeckillVoucher`, and the default of the status; the error is the text of the
`IllegalArgumentException`. -/
def validateNewSeckillVoucher : Option Voucher → Except String NewVoucher
  | none => .error "秒杀券不能为空"
  | some voucher =>
    match voucher.stock with
    | none => .error "秒杀券库存不能为空且不能小于0"
    | some stock =>
      if hstock : stock < 0 then .error "秒杀券库存不能为空且不能小于0"
      else
        match voucher.beginTime, voucher.endTime with
        | some beginTime, some endTime =>
          if htime : beginTime < endTime then
            .ok ⟨stock, ⟨beginTime, endTime, voucher.status.getD 1⟩, not_lt.mp hstock, htime⟩
          else .error "秒杀开始时间必须早于结束时间"
        | _, _ => .error "秒杀开始时间必须早于结束时间"

/-- The checks of the synchronizer repeat those of the call, but for the status. -/
theorem NewVoucher.valid_iff (voucher : NewVoucher) :
    voucher.activity.valid = true ↔ 1 ≤ voucher.activity.status ∧ voucher.activity.status ≤ 3 := by
  simp [Activity.valid, voucher.ordered]

/-- The fields of the hash as `synchronizeMetadata` writes them. -/
def Activity.toMeta (a : Activity) : ActivityMeta :=
  ⟨some a.beginTime, some a.endTime, some a.status⟩

/-- A hash that is not there. -/
def ActivityMeta.absent : ActivityMeta := ⟨none, none, none⟩

/-- A call that has inserted its rows. -/
structure VoucherCreation where
  voucher : NewVoucher
  stockKey : Bool
  hash : Bool
  deriving DecidableEq

namespace VoucherCreation

/-- The commands in their order: those of `synchronizeNewVoucher`, the Bloom filter, the end of the
transaction, those of `deleteVoucher`. -/
inductive Statement where
  | setStock
  | putAll
  | expire
  | deleteNull
  | localPut
  | bloomPut
  | commit
  | rollback
  | deleteStock
  | deleteMeta
  | deleteNullAgain
  | invalidateLocal
  deriving DecidableEq

/-- The statement after one that returns; `none` where the call is over. -/
def Statement.onReturn : Statement → Option Statement
  | .setStock => some .putAll
  | .putAll => some .expire
  | .expire => some .deleteNull
  | .deleteNull => some .localPut
  | .localPut => some .bloomPut
  | .bloomPut => some .commit
  | .commit => none
  | .rollback => some .deleteStock
  | .deleteStock => some .deleteMeta
  | .deleteMeta => some .deleteNullAgain
  | .deleteNullAgain => some .invalidateLocal
  | .invalidateLocal => none

/-- The statement after one that throws. -/
def Statement.onThrow : Statement → Option Statement
  | .setStock | .putAll | .expire | .deleteNull | .localPut | .bloomPut => some .rollback
  | .commit | .rollback => some .deleteStock
  | .deleteStock | .deleteMeta | .deleteNullAgain | .invalidateLocal => none

/-- `synchronizeNewVoucher` and `synchronizeMetadata` check the voucher first. -/
def Statement.validates : Statement → Bool
  | .setStock | .putAll => true
  | _ => false

/-- The stores as a statement of the creation of a voucher finds and leaves them. -/
structure Stores where
  creation : VoucherCreation
  redis : Redis
  db : Db

/-- The statement is carried out. -/
def Stores.perform (v : VoucherId) (s : Stores) : Statement → Stores
  | .setStock =>
    { s with
      creation := { s.creation with stockKey := true }
      redis := { s.redis with
        stock := Function.update s.redis.stock v (some s.creation.voucher.stock) } }
  | .putAll =>
    { s with
      creation := { s.creation with hash := true }
      redis := { s.redis with
        activity := Function.update s.redis.activity v s.creation.voucher.activity.toMeta } }
  | .commit =>
    { s with
      db := { s.db with stock := Function.update s.db.stock v (some s.creation.voucher.stock) } }
  | .deleteStock =>
    { s with
      creation := { s.creation with stockKey := false }
      redis := { s.redis with stock := Function.update s.redis.stock v none } }
  | .deleteMeta =>
    { s with
      creation := { s.creation with hash := false }
      redis := { s.redis with activity := Function.update s.redis.activity v .absent } }
  | .expire | .deleteNull | .localPut | .bloomPut | .rollback | .deleteNullAgain
  | .invalidateLocal => s

/-- The statement and how it ends: the stores, and the statement that follows. -/
def Stores.execute (v : VoucherId) (s : Stores) (statement : Statement) (reply : Reply) :
    Stores × Option Statement :=
  if statement.validates && !s.creation.voucher.activity.valid then (s, statement.onThrow)
  else
    match reply with
    | .returns => (s.perform v statement, statement.onReturn)
    | .throws true => (s.perform v statement, statement.onThrow)
    | .throws false => (s, statement.onThrow)

/-- **What a statement can do**: nothing, or what it is there for. -/
theorem execute_cases (v : VoucherId) (s : Stores) (statement : Statement) (reply : Reply) :
    (s.execute v statement reply).1 = s ∨
      (s.execute v statement reply).1 = s.perform v statement := by
  unfold Stores.execute
  split
  · exact Or.inl rfl
  · cases reply with
    | returns => exact Or.inr rfl
    | throws applied =>
      cases applied with
      | true => exact Or.inr rfl
      | false => exact Or.inl rfl

/-- A statement writes the two keys of its voucher and its row, nothing else. -/
theorem execute_frame (v : VoucherId) (s : Stores) (statement : Statement) (reply : Reply) :
    ∃ stock activity row,
      (s.execute v statement reply).1.redis =
        { s.redis with
          stock := Function.update s.redis.stock v stock
          activity := Function.update s.redis.activity v activity } ∧
      (s.execute v statement reply).1.db =
        { s.db with stock := Function.update s.db.stock v row } := by
  rcases execute_cases v s statement reply with heq | heq
  · exact ⟨s.redis.stock v, s.redis.activity v, s.db.stock v, by simp [heq], by simp [heq]⟩
  rw [heq]
  cases statement with
  | setStock =>
    exact ⟨some s.creation.voucher.stock, s.redis.activity v, s.db.stock v,
      by simp [Stores.perform], by simp [Stores.perform]⟩
  | putAll =>
    exact ⟨s.redis.stock v, s.creation.voucher.activity.toMeta, s.db.stock v,
      by simp [Stores.perform], by simp [Stores.perform]⟩
  | commit =>
    exact ⟨s.redis.stock v, s.redis.activity v, some s.creation.voucher.stock,
      by simp [Stores.perform], rfl⟩
  | deleteStock =>
    exact ⟨none, s.redis.activity v, s.db.stock v, by simp [Stores.perform],
      by simp [Stores.perform]⟩
  | deleteMeta =>
    exact ⟨s.redis.stock v, .absent, s.db.stock v, by simp [Stores.perform],
      by simp [Stores.perform]⟩
  | _ =>
    exact ⟨s.redis.stock v, s.redis.activity v, s.db.stock v, by simp [Stores.perform],
      by simp [Stores.perform]⟩

/-- No statement removes a row. -/
theorem execute_row (v : VoucherId) (s : Stores) (statement : Statement) (reply : Reply)
    {w : VoucherId} (h : (s.execute v statement reply).1.db.stock w = none) :
    s.db.stock w = none := by
  rcases execute_cases v s statement reply with heq | heq
  · rwa [heq] at h
  rw [heq] at h
  cases statement with
  | commit =>
    by_cases hw : w = v
    · subst hw
      exact absurd h (by simp [Stores.perform])
    · exact (Function.update_of_ne hw _ _).symm.trans h
  | _ => exact h

/-! ## The keys of a call -/

/-- The keys of the voucher are those the call has written. -/
structure Keys (v : VoucherId) (creation : VoucherCreation) (redis : Redis) : Prop where
  stock : redis.stock v = if creation.stockKey then some creation.voucher.stock else none
  activity : redis.activity v =
    if creation.hash then creation.voucher.activity.toMeta else .absent

theorem keys_execute (v : VoucherId) (s : Stores) (statement : Statement) (reply : Reply)
    (h : s.creation.Keys v s.redis) :
    (s.execute v statement reply).1.creation.Keys v (s.execute v statement reply).1.redis := by
  rcases execute_cases v s statement reply with heq | heq
  · rwa [heq]
  rw [heq]
  cases statement with
  | setStock => exact ⟨by simp [Stores.perform], h.activity⟩
  | putAll => exact ⟨h.stock, by simp [Stores.perform]⟩
  | deleteStock => exact ⟨by simp [Stores.perform], h.activity⟩
  | deleteMeta => exact ⟨h.stock, by simp [Stores.perform]⟩
  | _ => exact h

end VoucherCreation

end Hmdp.Model
