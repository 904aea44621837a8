import Hmdp.Model.Mysql
import Hmdp.Model.Redis

/-!
# Cancelling an order

The steps of `VoucherOrderServiceImpl.cancelVoucherOrder`: select the active order, cancel it on
condition of its status, return the stock in MySQL, run the cancel script; the compensation is
registered after the script has returned, and runs when the transaction does not commit.

* `cancelInTransaction_some`: what the transaction writes when it gets that far.
* `cancelInTransaction_isSome`: when it does.
-/

namespace Hmdp.Model

/-- The writes of `cancelVoucherOrder` to MySQL for a selected order; `none` where the call
returns a failure or throws before it reaches Redis. -/
def cancelInTransaction (order : VoucherOrder) (db : Db) : Option Db :=
  let cancelled := cancelActiveOrder order.id order.userId db
  if cancelled.1 ≠ 1 then none
  else
    let adjusted := adjustStock order.voucherId 1 cancelled.2
    if adjusted.1 ≠ 1 then none else some adjusted.2

/-- The order can be cancelled: `status IN (1, 2)`. -/
def VoucherOrder.cancellable (o : VoucherOrder) : Prop := o.status = .unpaid ∨ o.status = .paid

theorem VoucherOrder.cancellable.ne_cancelled {o : VoucherOrder} (h : o.cancellable) :
    o.status ≠ .cancelled := by
  rcases h with h | h <;> rw [h] <;> simp

/-- **What the transaction writes**: the row of the selected order becomes cancelled and the
stock grows by 1; every other row stays. -/
theorem cancelInTransaction_some {order : VoucherOrder} {db db' : Db}
    (h : cancelInTransaction order db = some db') :
    (∃ r ∈ db.orders.rows, r.id = order.id ∧ r.userId = order.userId ∧ r.cancellable) ∧
      db'.orders.rows = db.orders.rows.map (cancelRow order.id order.userId) ∧
      (∃ s, db.stock order.voucherId = some s ∧
        db'.stock = Function.update db.stock order.voucherId (some (s + 1))) ∧
      db'.outbox = db.outbox ∧ db'.outboxSeq = db.outboxSeq := by
  unfold cancelInTransaction at h
  simp only at h
  split at h
  · exact absurd h (by simp)
  rename_i hone
  have hmatch : (cancelActiveOrder order.id order.userId db).1 ≠ 0 := by omega
  split at h
  · exact absurd h (by simp)
  rename_i hadj
  have hdb := Option.some.inj h
  rcases adjustStock_cases order.voucherId 1 (cancelActiveOrder order.id order.userId db).2 with
    ⟨s, hs, -, heq⟩ | ⟨-, heq⟩
  · rw [heq] at hdb
    subst hdb
    exact ⟨exists_of_cancelActiveOrder hmatch, cancelActiveOrder_rows order.id order.userId db,
      ⟨s, hs, rfl⟩, rfl, rfl⟩
  · rw [heq] at hadj
    exact absurd Nat.zero_ne_one hadj

/-- **When the transaction gets that far**: the order's row can be cancelled and the voucher has a
stock row. -/
theorem cancelInTransaction_isSome {order : VoucherOrder} {db : Db} :
    (cancelInTransaction order db).isSome ↔
      (∃ r ∈ db.orders.rows, r.id = order.id ∧ r.userId = order.userId ∧ r.cancellable) ∧
        ∃ n, db.stock order.voucherId = some n ∧ 0 ≤ n + 1 := by
  constructor
  · intro h
    obtain ⟨db', hdb⟩ := Option.isSome_iff_exists.mp h
    obtain ⟨hrow, -⟩ := cancelInTransaction_some hdb
    refine ⟨hrow, ?_⟩
    unfold cancelInTransaction at hdb
    simp only at hdb
    split at hdb
    · exact absurd hdb (by simp)
    split at hdb
    · exact absurd hdb (by simp)
    rename_i hadj
    rcases adjustStock_cases order.voucherId 1 (cancelActiveOrder order.id order.userId db).2 with
      ⟨n, hn, hpos, -⟩ | ⟨-, heq⟩
    · exact ⟨n, hn, hpos⟩
    · rw [heq] at hadj
      exact absurd Nat.zero_ne_one hadj
  · rintro ⟨⟨r, hr, hid, hu, hc⟩, n, hn, hpos⟩
    have hone : (cancelActiveOrder order.id order.userId db).1 = 1 := by
      change (db.orders.rows.filter _).length = 1
      -- rows with one id are one row
      have hall : db.orders.rows.filter (fun x => decide (x.id = order.id ∧
          x.userId = order.userId ∧ (x.status = .unpaid ∨ x.status = .paid))) = [r] := by
        have hnodup : (db.orders.rows.filter (fun x => decide (x.id = order.id ∧
            x.userId = order.userId ∧ (x.status = .unpaid ∨ x.status = .paid)))).Nodup :=
          db.orders.nodup_key.of_map.filter _
        refine List.perm_singleton.mp ((List.perm_ext_iff_of_nodup hnodup
          (List.nodup_singleton r)).mpr fun x => ?_)
        rw [List.mem_filter, List.mem_singleton, decide_eq_true_eq]
        exact ⟨fun hx => db.order_unique hx.1 hr (hx.2.1.trans hid.symm), fun hx => by
          rw [hx]
          exact ⟨hr, hid, hu, hc⟩⟩
      rw [hall]
      rfl
    unfold cancelInTransaction
    simp only [hone, ne_eq, not_true_eq_false, if_false]
    rcases adjustStock_cases order.voucherId 1 (cancelActiveOrder order.id order.userId db).2 with
      ⟨m, -, -, heq⟩ | ⟨hlt, -⟩
    · rw [heq]
      rfl
    · have := hlt n hn
      omega

end Hmdp.Model
