import Hmdp.Lib.Machine
import Hmdp.Model.SignIn

/-!
# What `signCount` counts

Users sign in on any days in any order. A bit of a bitmap says whether its user has signed in on its
day (`signed_run`), since the key names the user and the month; so `signCount` is the number of days
up to today on which the user has signed in without a gap, within this month.
-/

namespace Hmdp.SignIn

open Hmdp.Lib Hmdp.Model

/-- One `sign`. -/
structure Visit where
  userId : UserId
  now : LocalDate
  deriving DecidableEq

/-- A sign-in, as a step. -/
def step (bitmaps : Bitmaps) (s : Visit) : Option Bitmaps := some (sign s.userId s.now bitmaps)

/-- No key exists. -/
def start : Bitmaps := fun _ _ => false

/-- The user has signed in on the day of the month of `now`. -/
def Signed (signs : List Visit) (userId : UserId) (now : LocalDate) (day : ℕ) : Prop :=
  ∃ s ∈ signs, s.userId = userId ∧ s.now.year = now.year ∧ s.now.month = now.month ∧
    s.now.day = day

instance (signs : List Visit) (userId : UserId) (now : LocalDate) (day : ℕ) :
    Decidable (Signed signs userId now day) :=
  inferInstanceAs (Decidable (∃ s ∈ signs, s.userId = userId ∧ s.now.year = now.year ∧
    s.now.month = now.month ∧ s.now.day = day))

variable {bitmaps : Bitmaps} {signs : List Visit} {userId u : UserId} {now d : LocalDate} {i : ℕ}

/-- Another bit than the one of the user and the day stays. -/
theorem sign_eq_true :
    sign u d bitmaps (signKey userId now) i = true ↔
      bitmaps (signKey userId now) i = true ∨
        (u = userId ∧ d.year = now.year ∧ d.month = now.month ∧ d.day = i + 1) := by
  have hday := d.day_valid
  unfold sign
  by_cases hkey : signKey userId now = signKey u d
  · obtain ⟨hu, hyear, hmonth⟩ := signKey_injective hkey
    rw [hkey, Function.update_self]
    by_cases hi : i = d.day - 1
    · rw [hi, Function.update_self]
      exact iff_of_true rfl (.inr ⟨hu.symm, hyear.symm, hmonth.symm, by omega⟩)
    · rw [Function.update_of_ne hi]
      constructor
      · exact .inl
      · rintro (hold | ⟨-, -, -, hd⟩)
        · exact hold
        · exact absurd (by omega) hi
  · rw [Function.update_of_ne hkey]
    constructor
    · exact .inl
    · rintro (hold | ⟨rfl, hyear, hmonth, -⟩)
      · exact hold
      · refine absurd ?_ hkey
        simp only [signKey, LocalDate.yyyyMM, hyear, hmonth]

/-- The bitmaps are the days signed, beside what was there. -/
theorem signed_run {t : Bitmaps} (hr : run step bitmaps signs = some t) :
    t (signKey userId now) i = true ↔
      bitmaps (signKey userId now) i = true ∨ Signed signs userId now (i + 1) := by
  induction signs generalizing bitmaps with
  | nil =>
    cases hr
    simp [Signed]
  | cons s signs ih =>
    obtain ⟨b, hb, hr⟩ := run_cons.mp hr
    cases hb
    rw [ih hr, sign_eq_true, or_assoc]
    refine or_congr_right ?_
    simp only [Signed, List.mem_cons, or_and_right, exists_or, exists_eq_left]

theorem signCount_eq : signCount userId now bitmaps =
    trailingOnes (bitField (bitmaps (signKey userId now)) now.day) := by
  unfold signCount
  simp only
  split
  · rename_i hzero
    rw [hzero, trailingOnes_zero]
  · rfl

/-- **The days without a gap.** After any sign-ins of any users in any order, `signCount` of a user
is `k` iff the user has signed in today and on the days before, `k` days in all, and not on the day
before these, unless the month starts with them. -/
theorem signCount_run {t : Bitmaps} {k : ℕ} (hr : run step start signs = some t) :
    signCount userId now t = k ↔
      k ≤ now.day ∧ (∀ i < k, Signed signs userId now (now.day - i)) ∧
        (k < now.day → ¬Signed signs userId now (now.day - k)) := by
  have hday := now.day_valid
  have hbit : ∀ i < now.day, t (signKey userId now) (now.day - 1 - i) = true ↔
      Signed signs userId now (now.day - i) := by
    intro i hi
    rw [signed_run hr, show now.day - 1 - i + 1 = now.day - i by omega]
    simp [start]
  rw [signCount_eq, trailingOnes_bitField]
  refine and_congr_right fun hk => and_congr (forall₂_congr fun i hi => hbit i (by omega)) ?_
  refine forall_congr' fun hlt => ?_
  rw [← hbit k hlt, Bool.not_eq_true]

/-- A day of March 2022. -/
def march (day : ℕ) (h : 1 ≤ day ∧ day ≤ 31) : LocalDate := ⟨2022, 3, day, by decide, h⟩

/-- Three sign-ins of one user, out of order, and one of another. -/
def marchVisits : List Visit :=
  [⟨5, march 14 (by decide)⟩, ⟨6, march 13 (by decide)⟩, ⟨5, march 12 (by decide)⟩,
    ⟨5, march 15 (by decide)⟩]

theorem signCount_run_march : ∃ t, run step start marchVisits = some t ∧
    signCount 5 (march 15 (by decide)) t = 2 := by
  obtain ⟨t, ht⟩ : ∃ t, run step start marchVisits = some t := ⟨_, rfl⟩
  exact ⟨t, ht, (signCount_run ht).mpr (by decide)⟩

end Hmdp.SignIn
