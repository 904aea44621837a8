import Hmdp.Model.Cancel

/-!
# Does a cancellation that does not commit leave Redis as it was?

The cancel script runs inside the open transaction, so a transaction that does not commit has to
be made up for in Redis. `cancelVoucherOrder` registers the compensation only after the script's
reply has arrived, and the compensation takes nothing back when the stock has meanwhile been sold
out. `Uncommitted` follows one call through its Redis steps, with any scripts of other calls
between the cancel script and the callback.

**`leaves_no_trace_iff`**: the call leaves neither the stock nor the user's membership changed iff
the cancel script was refused, or its reply arrived, the user was a member and the stock is
positive when the callback runs. `compensation_refused` is the run in which it is not: the last
unit, returned by the script, is sold before the callback.
-/

namespace Hmdp.Cancel

open Hmdp.Model

/-! ## The Redis steps of a call that does not commit -/

/-- Where the call fails. -/
inductive FailurePoint where
  /-- The script was sent and its reply lost: the call throws before it registers the
  compensation. -/
  | replyLost
  /-- The commit failed: the callback runs with the transaction rolled back. -/
  | commitFailed
  deriving DecidableEq

/-- A script another call runs meanwhile. -/
inductive OtherScript where
  | seckill (call : SeckillCall)
  | cancel (voucherId : VoucherId) (userId : UserId)
  | cancelRollback (voucherId : VoucherId) (userId : UserId)

/-- What the script does to Redis. -/
def OtherScript.apply : OtherScript → Redis → Redis
  | .seckill call, s => (seckillLua call s).2
  | .cancel v u, s => (cancelLua v u s).2
  | .cancelRollback v u, s => (cancelRollbackLua v u s).2

/-- The scripts one after another. -/
def applyAll : List OtherScript → Redis → Redis
  | [], s => s
  | op :: ops, s => applyAll ops (op.apply s)

/-- The Redis states around the two scripts of one call. -/
structure Uncommitted where
  before : Redis
  afterScript : Redis
  beforeCallback : Redis
  afterCallback : Redis

/-- The call of user `u` for voucher `v` up to the end of its callback. A refused script
(`redisResult < 0`) throws, like a lost reply, before the compensation is registered. -/
def uncommitted (v : VoucherId) (u : UserId) (failure : FailurePoint) (others : List OtherScript)
    (s : Redis) : Uncommitted :=
  let cancelled := cancelLua v u s
  let meanwhile := applyAll others cancelled.2
  let registered := decide (failure = .commitFailed) && decide (0 ≤ cancelled.1)
  ⟨s, cancelled.2, meanwhile,
    if registered then (cancelRollbackLua v u meanwhile).2 else meanwhile⟩

/-- The stock key, 0 where it is missing. -/
def stockOf (v : VoucherId) (s : Redis) : ℤ := (s.stock v).getD 0

/-- What the call itself adds to the stock key. -/
def Uncommitted.netStock (t : Uncommitted) (v : VoucherId) : ℤ :=
  (stockOf v t.afterScript - stockOf v t.before) +
    (stockOf v t.afterCallback - stockOf v t.beforeCallback)

/-- The call adds nothing to the stock key, and the user is a member afterwards iff before. -/
def Uncommitted.LeavesNoTrace (t : Uncommitted) (v : VoucherId) (u : UserId) : Prop :=
  t.netStock v = 0 ∧ (u ∈ t.afterCallback.purchased v ↔ u ∈ t.before.purchased v)

/-! ## Without a stock key nothing happens -/

theorem apply_of_no_stock {v : VoucherId} {s : Redis} (h : s.stock v = none) (op : OtherScript) :
    (op.apply s).stock v = none ∧ (op.apply s).purchased v = s.purchased v := by
  cases op with
  | seckill call =>
    rcases seckillLua_cases call s with ⟨-, hs⟩ | ⟨-, n, hn, -, -, -, hs⟩
    · simp only [OtherScript.apply, hs]
      exact ⟨h, trivial⟩
    · have hv : v ≠ call.voucherId := by
        intro hv
        rw [← hv, h] at hn
        exact absurd hn (by simp)
      simp [OtherScript.apply, hs, Redis.reserve, hv, h]
  | cancel w u =>
    rcases cancelLua_cases w u s with ⟨-, hs⟩ | ⟨n, hn, -, hs⟩
    · simp only [OtherScript.apply, hs]
      exact ⟨h, trivial⟩
    · have hv : v ≠ w := by
        intro hv
        rw [← hv, h] at hn
        exact absurd hn (by simp)
      simp [OtherScript.apply, hs, hv, h]
  | cancelRollback w u =>
    rcases cancelRollbackLua_cases w u s with ⟨-, hs⟩ | ⟨n, hn, -, hs⟩
    · simp only [OtherScript.apply, hs]
      exact ⟨h, trivial⟩
    · have hv : v ≠ w := by
        intro hv
        rw [← hv, h] at hn
        exact absurd hn (by simp)
      simp [OtherScript.apply, hs, hv, h]

theorem applyAll_of_no_stock {v : VoucherId} {others : List OtherScript} {s : Redis}
    (h : s.stock v = none) :
    (applyAll others s).stock v = none ∧ (applyAll others s).purchased v = s.purchased v := by
  induction others generalizing s with
  | nil => exact ⟨h, rfl⟩
  | cons op ops ih =>
    obtain ⟨hstock, hmem⟩ := apply_of_no_stock h op
    obtain ⟨hstock', hmem'⟩ := ih hstock
    exact ⟨hstock', hmem'.trans hmem⟩

/-! ## The exact condition -/

/-- A refused script leaves no trace. -/
theorem leavesNoTrace_of_refused {v : VoucherId} {s : Redis} (h : s.stock v = none) (u : UserId)
    (failure : FailurePoint) (others : List OtherScript) :
    (uncommitted v u failure others s).LeavesNoTrace v u := by
  have hc : cancelLua v u s = (-1, s) := by
    rcases cancelLua_cases v u s with ⟨-, hc⟩ | ⟨n, hn, -⟩
    · exact hc
    · rw [h] at hn
      exact absurd hn (by simp)
  obtain ⟨hstock, hmem⟩ := @applyAll_of_no_stock v others s h
  simp [uncommitted, Uncommitted.LeavesNoTrace, Uncommitted.netStock, hc, hmem]

/-- A script that was applied adds 1 to the stock. -/
theorem stockOf_cancelLua {v : VoucherId} {u : UserId} {s : Redis} {n : ℤ}
    (h : s.stock v = some n) :
    0 ≤ (cancelLua v u s).1 ∧ stockOf v (cancelLua v u s).2 - stockOf v s = 1 := by
  rcases cancelLua_cases v u s with ⟨hnone, -⟩ | ⟨m, hm, hpos, hs⟩
  · rw [h] at hnone
    exact absurd hnone (by simp)
  · refine ⟨hpos, ?_⟩
    rw [hs]
    simp only [stockOf, Function.update_self, hm, Option.getD_some]
    omega

/-- **When an uncommitted cancellation leaves no trace**: for every failure point and whatever
scripts run before the callback, the stock and the user's membership are as if the call had not
been made iff the cancel script found no stock key, or its reply arrived, the user was a member,
and the stock is positive when the callback runs. -/
theorem leaves_no_trace_iff (v : VoucherId) (u : UserId) (failure : FailurePoint)
    (others : List OtherScript) (s : Redis) :
    (uncommitted v u failure others s).LeavesNoTrace v u ↔
      s.stock v = none ∨
        (failure = .commitFailed ∧ u ∈ s.purchased v ∧
          ∃ n, (applyAll others (cancelLua v u s).2).stock v = some n ∧ 0 < n) := by
  cases hstock : s.stock v with
  | none => exact ⟨fun _ => Or.inl rfl, fun _ => leavesNoTrace_of_refused hstock u failure others⟩
  | some n =>
    obtain ⟨hpos, hplus⟩ := @stockOf_cancelLua v u s n hstock
    cases failure with
    | replyLost =>
      -- no compensation is registered, so the unit the script returned stays
      refine ⟨fun h => ?_, fun h => by simp at h⟩
      have hnet := h.1
      simp only [uncommitted, Uncommitted.netStock, reduceCtorEq, decide_false, Bool.false_and,
        Bool.false_eq_true, if_false, hplus] at hnet
      omega
    | commitFailed =>
      simp only [uncommitted, Uncommitted.LeavesNoTrace, Uncommitted.netStock, hpos, hplus,
        decide_true, Bool.and_self, if_true]
      generalize applyAll others (cancelLua v u s).2 = t
      rcases cancelRollbackLua_cases v u t with ⟨hle, hr⟩ | ⟨m, hm, hmpos, hr⟩
      · constructor
        · rintro ⟨hnet, -⟩
          simp only [hr, Int.sub_self] at hnet
          omega
        · rintro (h | ⟨-, -, m, hm, hmpos⟩)
          · exact absurd h (by simp)
          · exact absurd (hle m hm) (by omega)
      · rw [hr]
        simp only [stockOf, hm, Function.update_self, Option.getD_some, Finset.mem_insert, true_or,
          true_iff, Option.some.injEq, reduceCtorEq, true_and, false_or]
        constructor
        · rintro ⟨-, hmem⟩
          exact ⟨hmem, m, rfl, hmpos⟩
        · rintro ⟨hmem, -⟩
          exact ⟨by omega, hmem⟩

/-! ### The last unit is sold before the callback -/

/-- Voucher 7 is on sale, sold out, and user 5 has bought the last unit. -/
def soldOut : Redis :=
  { Redis.empty with
    stock := fun v => if v = 7 then some 0 else none
    purchased := fun v => if v = 7 then {5} else ∅
    activity := fun v => if v = 7 then ⟨some 0, some 100, some 1⟩ else ⟨none, none, none⟩ }

/-- **The law fails**: user 5 cancels, user 6 buys the returned unit, the commit fails, and the
compensation is refused. The unit the script returned stays sold, and user 5, whose order is live,
is no member any more. -/
theorem compensation_refused :
    ¬∀ (v : VoucherId) (u : UserId) (failure : FailurePoint) (others : List OtherScript)
      (s : Redis), (uncommitted v u failure others s).LeavesNoTrace v u := by
  intro h
  have hnet := (h 7 5 .commitFailed [.seckill ⟨7, 6, 2, 50, [], false⟩] soldOut).1
  exact absurd hnet (by decide +kernel)

end Hmdp.Cancel
