import Hmdp.Pipeline.Custody

/-!
# The fence of a recovery key

`seckill.lua` refuses while the recovery key of the voucher exists, and nothing else of the
pipeline looks at the key. So as long as it exists no order of the voucher is accepted, and its
handoff set only shrinks; the relays, the consumer and the cancellations go on as before.
-/

namespace Hmdp.Pipeline

open Hmdp.Lib Hmdp.Model

variable {rejects : Reservation → Bool} {s t : State} {v : VoucherId} {r : Reservation}

/-- The pipeline leaves the recovery keys and the staging sets alone. -/
theorem step_recovery {a : Action} (h : Coherent rejects s) (hstep : step rejects s a = some t) :
    t.redis.recovery = s.redis.recovery ∧ t.redis.staging = s.redis.staging := by
  cases step_effect h hstep with
  | quiet stores _ => exact ⟨stores.recovery, stores.staging⟩
  | reserved c n _ _ _ _ _ _ _ redis _ _ =>
    rw [redis]
    exact ⟨rfl, rfl⟩
  | persisted tx messages os _ _ _ redis _ =>
    rw [redis]
    exact ⟨rfl, rfl⟩
  | cancelled _ order n _ _ _ _ _ redis _ =>
    rw [redis]
    exact ⟨rfl, rfl⟩

/-- Outbox rows and order rows are never lost. -/
theorem step_grows {a : Action} (h : Coherent rejects s) (hstep : step rejects s a = some t) :
    Grows s.db t.db := by
  cases step_effect h hstep with
  | quiet stores _ => exact stores.grows
  | reserved c n _ _ _ _ _ _ _ _ db _ =>
    rw [db]
    exact Grows.refl s.db
  | persisted tx messages os _ _ created _ _ => exact Grows.createOrders created
  | cancelled _ order n _ _ _ cancel _ _ _ => exact Grows.cancelInTransaction cancel

/-- **No order of a fenced voucher is accepted.** -/
theorem fenced_granted {a : Action} (h : Coherent rejects s) (hstep : step rejects s a = some t)
    (hfence : s.redis.recovery v ≠ none) (hv : r.voucherId = v) :
    r ∈ t.granted ↔ r ∈ s.granted := by
  cases step_effect h hstep with
  | quiet _ granted => rw [granted]
  | reserved c n _ _ _ _ _ _ open_ _ _ granted =>
    rw [granted, List.mem_cons]
    refine ⟨fun hr => hr.resolve_left ?_, Or.inr⟩
    rintro rfl
    exact hfence (hv ▸ open_)
  | persisted tx messages os _ _ _ _ granted => rw [granted]
  | cancelled _ order n _ _ _ _ _ _ granted => rw [granted]

/-- **No member is added to a fenced handoff set.** -/
theorem fenced_handoff {a : Action} (h : Coherent rejects s) (hstep : step rejects s a = some t)
    (hfence : s.redis.recovery v ≠ none) {m : Text} (hm : m ∈ (t.redis.handoff v).members) :
    m ∈ (s.redis.handoff v).members := by
  cases step_handoff h hstep with
  | kept handoff => rwa [handoff] at hm
  | reserved c n open_ redis =>
    rw [redis] at hm
    refine (Redis.mem_reserve_handoff.mp hm).resolve_left ?_
    rintro ⟨rfl, -⟩
    exact hfence open_
  | completed w rs _ _ redis =>
    rw [redis] at hm
    exact ((handoffComplete_snd w _ s.redis).1 v m |>.mp hm).1
  | quarantined r reason _ redis =>
    rcases handoffQuarantine_cases r.voucherId r.member reason s.redis with ⟨-, heq⟩ | ⟨-, heq⟩
    · rwa [redis, heq] at hm
    · rw [redis, heq] at hm
      by_cases hv : v = r.voucherId
      · subst hv
        simp only [Function.update_self, ZSet.mem_zrem] at hm
        exact hm.1
      · simpa only [Function.update_of_ne hv] using hm

/-- The Redis stock of a fenced voucher moves only when a cancellation commits. -/
theorem fenced_stock {a : Action} (h : Coherent rejects s) (hstep : step rejects s a = some t)
    (hfence : s.redis.recovery v ≠ none)
    (hcancel : ∀ i order, a = .cancel i → s.cancels i = some order → order.voucherId = v →
      cancelCommitted order s.redis s.db = none) : t.redis.stock v = s.redis.stock v := by
  cases step_effect h hstep with
  | quiet stores _ => rw [stores.stock]
  | reserved c n _ _ _ _ _ _ open_ redis _ _ =>
    rw [redis]
    refine Function.update_of_ne ?_ _ _
    rintro rfl
    exact hfence open_
  | persisted tx messages os _ _ _ redis _ => rw [redis]
  | cancelled i order n action committed _ _ _ redis _ =>
    rw [redis]
    refine Function.update_of_ne ?_ _ _
    rintro rfl
    have hnone := hcancel i order action committed.1 rfl
    rw [committed.2] at hnone
    exact absurd hnone (by simp)

end Hmdp.Pipeline
