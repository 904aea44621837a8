import Mathlib.Algebra.Ring.Nat
import Mathlib.Data.Bool.Basic
import Mathlib.Data.Nat.Notation

/-!
# Bit strings and their trailing ones

The first bits of a bit string, read as a number whose most significant bit is the first, and the
loop that counts the ones at the end of a number.

* `trailingOnes_bitField`: on the first `n` bits the loop counts the ones before bit `n`, back to
  the first zero.
-/

namespace Hmdp.Lib

/-- The first `width` bits as a number, the first bit the most significant. -/
def bitField (bits : ℕ → Bool) : ℕ → ℕ
  | 0 => 0
  | width + 1 => 2 * bitField bits width + (bits width).toNat

/-- Shift the ones out at the end of a number, and count them. -/
def trailingOnes (num : ℕ) : ℕ :=
  if num % 2 = 0 then 0 else trailingOnes (num / 2) + 1
termination_by num
decreasing_by omega

variable {bits : ℕ → Bool} {n k : ℕ}

theorem trailingOnes_zero : trailingOnes 0 = 0 := by
  rw [trailingOnes, if_pos rfl]

theorem trailingOnes_bitField_succ (bits : ℕ → Bool) (n : ℕ) :
    trailingOnes (bitField bits (n + 1)) =
      if bits n = true then trailingOnes (bitField bits n) + 1 else 0 := by
  rw [trailingOnes, bitField]
  cases bits n with
  | false =>
    rw [if_pos (by simp only [Bool.toNat_false]; omega), if_neg Bool.false_ne_true]
  | true =>
    have hdiv : (2 * bitField bits n + Bool.toNat true) / 2 = bitField bits n := by
      simp only [Bool.toNat_true]
      omega
    rw [if_neg (by simp only [Bool.toNat_true]; omega), if_pos rfl, hdiv]

/-- **The loop counts the last run of ones**: `k` of them, back to a zero or to the start. -/
theorem trailingOnes_bitField :
    trailingOnes (bitField bits n) = k ↔
      k ≤ n ∧ (∀ i < k, bits (n - 1 - i) = true) ∧ (k < n → bits (n - 1 - k) = false) := by
  induction n generalizing k with
  | zero =>
    rw [bitField, trailingOnes_zero]
    constructor
    · rintro rfl
      exact ⟨Nat.le_refl 0, fun i hi => absurd hi (Nat.not_lt_zero i), fun h => absurd h (by omega)⟩
    · rintro ⟨hk, -, -⟩
      omega
  | succ n ih =>
    rw [trailingOnes_bitField_succ]
    cases hbit : bits n with
    | false =>
      rw [if_neg Bool.false_ne_true]
      constructor
      · rintro rfl
        exact ⟨Nat.zero_le _, fun i hi => absurd hi (Nat.not_lt_zero i), fun _ => hbit⟩
      · rintro ⟨-, hones, -⟩
        -- a run that is not empty would have bit `n` in it
        by_contra hne
        have hlast := hones 0 (by omega)
        rw [Nat.sub_zero, Nat.add_sub_cancel, hbit] at hlast
        cases hlast
    | true =>
      rw [if_pos rfl]
      cases k with
      | zero =>
        constructor
        · intro h
          omega
        · rintro ⟨-, -, hzero⟩
          have hlast := hzero (by omega)
          rw [Nat.sub_zero, Nat.add_sub_cancel, hbit] at hlast
          cases hlast
      | succ k =>
        rw [Nat.add_right_cancel_iff, ih]
        have hshift : ∀ i, n + 1 - 1 - (i + 1) = n - 1 - i := by
          intro i
          omega
        constructor
        · rintro ⟨hk, hones, hzero⟩
          refine ⟨by omega, fun i hi => ?_, fun h => ?_⟩
          · cases i with
            | zero => exact hbit
            | succ i =>
              rw [hshift]
              exact hones i (by omega)
          · rw [hshift]
            exact hzero (by omega)
        · rintro ⟨hk, hones, hzero⟩
          refine ⟨by omega, fun i hi => ?_, fun h => ?_⟩
          · rw [← hshift]
            exact hones (i + 1) (by omega)
          · rw [← hshift]
            exact hzero (by omega)

end Hmdp.Lib
