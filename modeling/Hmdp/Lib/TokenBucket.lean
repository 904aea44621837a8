import Hmdp.Lib.Machine
import Mathlib.Algebra.Order.Field.Basic
import Mathlib.Tactic.Linarith
import Mathlib.Tactic.Ring

/-!
# Token buckets

The ideal bucket: `capacity` tokens at most, refilled at `rate` tokens a unit of time, each spend
takes one. A spend never happens before the last one, so a run of spends is a list of times in
order.

* `level_of_full`: how long a bucket has to be left alone to be full again.
* `refill_le_level`: an estimate below the level stays below it while both refill, also with a
  smaller capacity and a smaller rate.
* **`window_bound`**: a run of spends has at most `capacity + rate * (b - a)` of them in `[a, b]`.
-/

namespace Hmdp.Lib

variable {K : Type*} [Field K] [LinearOrder K]

/-- A bucket that holds at most `capacity` and gains `rate` a unit of time. -/
structure TokenBucket (K : Type*) [Field K] [LinearOrder K] where
  capacity : K
  rate : K
  capacity_nonneg : 0 ≤ capacity
  rate_nonneg : 0 ≤ rate

namespace TokenBucket

/-- What a bucket held at its last spend. -/
structure Held (K : Type*) [Field K] [LinearOrder K] where
  tokens : K
  since : K

variable (B : TokenBucket K)

/-- The tokens at `t`. -/
def level (h : Held K) (t : K) : K := min B.capacity (h.tokens + (t - h.since) * B.rate)

/-- One token is taken at time `t`, if the level allows it. -/
def spend (h : Held K) (t : K) : Option (Held K) :=
  if h.since ≤ t ∧ 1 ≤ B.level h t then some ⟨B.level h t - 1, t⟩ else none

/-- Full at `t`. -/
def full (t : K) : Held K := ⟨B.capacity, t⟩

variable {B} {h h' : Held K} {t u : K}

theorem spend_eq_some (hs : B.spend h t = some h') :
    h.since ≤ t ∧ 1 ≤ B.level h t ∧ h' = ⟨B.level h t - 1, t⟩ := by
  unfold spend at hs
  split at hs
  · rename_i hen
    cases hs
    exact ⟨hen.1, hen.2, rfl⟩
  · cases hs

/-- The spends of a run are not before its start. -/
theorem since_le_of_run {ts : List K} (hr : run B.spend h ts = some h') :
    ∀ t ∈ ts, h.since ≤ t := by
  induction ts generalizing h with
  | nil => exact fun _ ht => absurd ht List.not_mem_nil
  | cons u ts ih =>
    obtain ⟨g, hg, hr⟩ := run_cons.mp hr
    obtain ⟨hle, -, rfl⟩ := spend_eq_some hg
    intro t ht
    rcases List.mem_cons.mp ht with rfl | ht
    · exact hle
    · exact hle.trans (ih hr t ht)

/-! ## The level -/

theorem level_le_capacity (h : Held K) (t : K) : B.level h t ≤ B.capacity := min_le_left _ _

theorem level_le_refill (h : Held K) (t : K) :
    B.level h t ≤ h.tokens + (t - h.since) * B.rate := min_le_right _ _

theorem le_level {x : K} (hcap : x ≤ B.capacity)
    (hrefill : x ≤ h.tokens + (t - h.since) * B.rate) : x ≤ B.level h t := le_min hcap hrefill

variable [IsStrictOrderedRing K]

/-- A bucket whose refill since the last spend covers its capacity is full. -/
theorem level_of_full (h0 : 0 ≤ h.tokens) (hfull : B.capacity ≤ (t - h.since) * B.rate) :
    B.level h t = B.capacity :=
  min_eq_left (by linarith)

theorem level_full (h : u ≤ t) : B.level (B.full u) t = B.capacity := by
  refine min_eq_left ?_
  have hrefill : 0 ≤ (t - u) * B.rate := mul_nonneg (sub_nonneg.mpr h) B.rate_nonneg
  exact le_add_of_nonneg_right hrefill

/-- **Estimates from below.** Refilled from `u` on, at most as fast and as high as the bucket,
they stay below its level. -/
theorem refill_le_level {x capacity rate : K} (hx : x ≤ B.level h u) (hut : u ≤ t)
    (hcap : capacity ≤ B.capacity) (hrate : rate ≤ B.rate) :
    min capacity (x + (t - u) * rate) ≤ B.level h t := by
  have hslow : (t - u) * rate ≤ (t - u) * B.rate :=
    mul_le_mul_of_nonneg_left hrate (sub_nonneg.mpr hut)
  refine le_level ((min_le_left _ _).trans hcap) ((min_le_right _ _).trans ?_)
  calc x + (t - u) * rate
      ≤ h.tokens + (u - h.since) * B.rate + (t - u) * B.rate :=
        add_le_add (hx.trans (level_le_refill h u)) hslow
    _ = h.tokens + (t - h.since) * B.rate := by ring

/-! ## Runs of spends -/

/-- A spend leaves no debt. -/
theorem spend_nonneg (hs : B.spend h t = some h') : 0 ≤ h'.tokens := by
  obtain ⟨-, hone, rfl⟩ := spend_eq_some hs
  exact sub_nonneg.mpr hone

theorem spend_le_capacity (hs : B.spend h t = some h') : h'.tokens ≤ B.capacity := by
  obtain ⟨-, -, rfl⟩ := spend_eq_some hs
  exact (sub_le_self _ zero_le_one).trans (level_le_capacity h t)

/-- The spends up to `b` are covered by the tokens at the start and the refill until `b`. -/
theorem countP_le {ts : List K} {b : K} (hr : run B.spend h ts = some h') (h0 : 0 ≤ h.tokens)
    (hb : h.since ≤ b) :
    (ts.countP fun t => decide (t ≤ b) : K) ≤ h.tokens + (b - h.since) * B.rate := by
  induction ts generalizing h with
  | nil =>
    have hrefill : 0 ≤ (b - h.since) * B.rate := mul_nonneg (sub_nonneg.mpr hb) B.rate_nonneg
    simpa using add_nonneg h0 hrefill
  | cons t ts ih =>
    obtain ⟨g, hg, hr⟩ := run_cons.mp hr
    have hg0 : 0 ≤ g.tokens := spend_nonneg hg
    obtain ⟨hle, -, rfl⟩ := spend_eq_some hg
    rcases le_or_gt t b with htb | hbt
    · rw [List.countP_cons_of_pos (by simpa using htb), Nat.cast_add_one]
      have hrest := ih hr hg0 htb
      have hlevel := level_le_refill (B := B) h t
      calc (ts.countP fun t => decide (t ≤ b) : K) + 1
          ≤ B.level h t - 1 + (b - t) * B.rate + 1 := add_le_add_left hrest 1
        _ ≤ h.tokens + (t - h.since) * B.rate + (b - t) * B.rate := by linarith
        _ = h.tokens + (b - h.since) * B.rate := by ring
    · -- every later spend is after `b` too
      have hnone : (t :: ts).countP (fun t => decide (t ≤ b)) = 0 := by
        refine List.countP_eq_zero.mpr fun u hu => ?_
        rcases List.mem_cons.mp hu with rfl | hu
        · simpa using hbt
        · simpa using hbt.trans_le (since_le_of_run hr u hu)
      rw [hnone, Nat.cast_zero]
      exact add_nonneg h0 (mul_nonneg (sub_nonneg.mpr hb) B.rate_nonneg)

/-- **The window bound.** -/
theorem window_bound {ts : List K} {a b : K} (hr : run B.spend h ts = some h') (hab : a ≤ b) :
    (ts.countP fun t => decide (a ≤ t ∧ t ≤ b) : K) ≤ B.capacity + (b - a) * B.rate := by
  induction ts generalizing h with
  | nil =>
    have hrefill : 0 ≤ (b - a) * B.rate := mul_nonneg (sub_nonneg.mpr hab) B.rate_nonneg
    simpa using add_nonneg B.capacity_nonneg hrefill
  | cons t ts ih =>
    obtain ⟨g, hg, hr⟩ := run_cons.mp hr
    by_cases hin : a ≤ t ∧ t ≤ b
    · -- the first spend of the window starts from at most `capacity` tokens
      have hg0 : 0 ≤ g.tokens := spend_nonneg hg
      obtain ⟨-, -, rfl⟩ := spend_eq_some hg
      rw [List.countP_cons_of_pos (by simpa using hin), Nat.cast_add_one]
      have hsub : ts.countP (fun t => decide (a ≤ t ∧ t ≤ b)) ≤
          ts.countP fun t => decide (t ≤ b) :=
        List.countP_mono_left fun u _ hu => by simpa using (of_decide_eq_true hu).2
      have hrest := countP_le hr hg0 hin.2
      have hcast : (ts.countP fun t => decide (a ≤ t ∧ t ≤ b) : K) ≤
          (ts.countP fun t => decide (t ≤ b) : K) := Nat.cast_le.mpr hsub
      have hlevel := level_le_capacity (B := B) h t
      have hlater : (b - t) * B.rate ≤ (b - a) * B.rate :=
        mul_le_mul_of_nonneg_right (sub_le_sub_left hin.1 b) B.rate_nonneg
      linarith
    · rw [List.countP_cons_of_neg (by simpa using hin)]
      exact ih hr

end TokenBucket

end Hmdp.Lib
