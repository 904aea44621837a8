import Hmdp.Model.Mysql
import Hmdp.Model.Redis

/-!
# `VoucherServiceImpl.updateSeckillVoucherStock`

The statement on `tb_seckill_voucher` takes the lock of the row and keeps it until the transaction
ends, so the row has a new value nobody else sees (`rowStock`). `INCRBY` follows within the
transaction. Its reply decides: a negative one is taken back at once and the call throws; otherwise
the compensation is registered, and `afterCompletion` runs it when the transaction has not been
reported as committed, after the lock is gone. An exception of `INCRBY` itself leaves before the
registration.

`added` and `created` are ghosts: what the call has added to the Redis stock so far, and whether
its first `INCRBY` found no key.

The change is a Java `int`, whose negation is exact but for the least one; the column is a signed
`INT` too, so the statement refuses a change by that.
-/

namespace Hmdp.Model

/-- `opsForValue().increment` of the stock: `INCRBY` takes a missing key for 0. -/
def Redis.increment (v : VoucherId) (delta : ℤ) (s : Redis) : ℤ × Redis :=
  let stock := (s.stock v).getD 0 + delta
  (stock, { s with stock := Function.update s.stock v (some stock) })

/-- A call whose statement has matched the row. -/
structure Adjustment where
  voucherId : VoucherId
  changeStock : ℤ
  /-- the row's value after the statement -/
  rowStock : ℤ
  added : ℤ
  created : Bool
  deriving DecidableEq

namespace Adjustment

/-- Where an update of the stock stands. -/
inductive Phase where
  | idle
  /-- `INCRBY` is next -/
  | adjusted (call : Adjustment)
  /-- the reply is negative; the `INCRBY` that takes it back is next -/
  | negative (call : Adjustment)
  /-- the compensation is registered; the commit is next -/
  | registered (call : Adjustment)
  /-- it throws; the rollback is next -/
  | thrown (call : Adjustment)
  /-- the transaction is over and not reported as committed, whether or not it is, with `stored`
  added to the row; `afterCompletion` is next -/
  | completing (call : Adjustment) (committed : Bool) (stored : ℤ)

/-- The call that holds its row lock. -/
def Phase.locked : Phase → Option Adjustment
  | .adjusted call | .negative call | .registered call | .thrown call => some call
  | .idle | .completing _ _ _ => none

/-- The voucher of the call. -/
def Phase.voucherId : Phase → Option VoucherId
  | .idle => none
  | .adjusted call | .negative call | .registered call | .thrown call | .completing call _ _ =>
    some call.voucherId

/-- The statement of `adjustStock`, with the range of the column. -/
def start (v : VoucherId) (changeStock : ℤ) (db : Db) : Option Adjustment :=
  let adjusted := adjustStock v changeStock db
  if adjusted.1 = 1 then
    (adjusted.2.stock v).bind fun rowStock =>
      if rowStock ≤ 2147483647 then some ⟨v, changeStock, rowStock, 0, false⟩ else none
  else none

/-- `INCRBY` of the change has been carried out. -/
def incremented (call : Adjustment) (redis : Redis) : Adjustment :=
  { call with
    added := call.added + call.changeStock
    created := (redis.stock call.voucherId).isNone }

/-- `INCRBY` of the change, and where its reply leads. -/
def increment (call : Adjustment) (redis : Redis) : Reply → Redis × Phase
  | .returns =>
    let redisStock := redis.increment call.voucherId call.changeStock
    (redisStock.2,
      if redisStock.1 < 0 then .negative (call.incremented redis)
      else .registered (call.incremented redis))
  | .throws true =>
    ((redis.increment call.voucherId call.changeStock).2, .thrown (call.incremented redis))
  | .throws false => (redis, .thrown call)

/-- `INCRBY` of the opposite, in the branch of a negative reply or in `afterCompletion`. -/
def compensate (call : Adjustment) (redis : Redis) : Reply → Redis × Adjustment
  | .returns | .throws true =>
    ((redis.increment call.voucherId (-call.changeStock)).2,
      { call with added := call.added - call.changeStock })
  | .throws false => (redis, call)

/-- The row gets the value of the transaction. -/
def write (call : Adjustment) (db : Db) : Db :=
  { db with stock := Function.update db.stock call.voucherId (some call.rowStock) }

/-- What the commit adds to the row. -/
def stored (call : Adjustment) (db : Db) : ℤ := call.rowStock - (db.stock call.voucherId).getD 0

/-- **The statement** matches an existing row and leaves it at least 0. -/
theorem start_eq_some {v : VoucherId} {changeStock : ℤ} {db : Db} {call : Adjustment}
    (h : start v changeStock db = some call) : ∃ n, db.stock v = some n ∧ 0 ≤ n + changeStock ∧
      call = ⟨v, changeStock, n + changeStock, 0, false⟩ := by
  unfold start at h
  rcases adjustStock_cases v changeStock db with ⟨n, hn, hpos, heq⟩ | ⟨-, heq⟩
  · rw [heq] at h
    simp only [if_true, Function.update_self, Option.bind_some] at h
    split at h <;> cases h
    exact ⟨n, hn, hpos, rfl⟩
  · rw [heq] at h
    exact absurd h (by simp)

end Adjustment

end Hmdp.Model
