import Mathlib.Algebra.BigOperators.Group.Finset.Basic

/-!
# Items that are handed over

Items lie on a pile or are in one of `n` pairs of hands. `custody` counts the places an item is
in, so that "each item is in exactly one place" is an equation, and a hand-over changes two terms
of it (`custody_update`).
-/

namespace Hmdp.Lib

variable {ι : Type*} [DecidableEq ι]

/-- In how many places an item is. -/
def custody (pile : List ι) (hands : ℕ → List ι) (n : ℕ) (i : ι) : ℕ :=
  pile.count i + ∑ w ∈ Finset.range n, (hands w).count i

variable {pile pile' hand : List ι} {hands : ℕ → List ι} {n w : ℕ}

/-- **A hand-over** between one pair of hands and the pile. -/
theorem custody_update (hw : w < n) (i : ι) :
    custody pile' (Function.update hands w hand) n i + pile.count i + (hands w).count i =
      custody pile hands n i + pile'.count i + hand.count i := by
  have hmem : w ∈ Finset.range n := Finset.mem_range.mpr hw
  have hrest : ∑ v ∈ (Finset.range n).erase w, (Function.update hands w hand v).count i =
      ∑ v ∈ (Finset.range n).erase w, (hands v).count i :=
    Finset.sum_congr rfl fun v hv => by rw [Function.update_of_ne (Finset.ne_of_mem_erase hv)]
  have hbefore := Finset.add_sum_erase _ (fun v => (hands v).count i) hmem
  have hafter := Finset.add_sum_erase _ (fun v => (Function.update hands w hand v).count i) hmem
  simp only [Function.update_self] at hafter
  unfold custody
  omega

/-- What one pair of hands holds is part of the count. -/
theorem count_le_custody (hw : w < n) (i : ι) :
    pile.count i + (hands w).count i ≤ custody pile hands n i := by
  have hsum := Finset.add_sum_erase _ (fun v => (hands v).count i) (Finset.mem_range.mpr hw)
  unfold custody
  omega

/-- Two pairs of hands hold two places. -/
theorem count_add_count_le_custody {v : ℕ} (hv : v < n) (hw : w < n) (hvw : v ≠ w) (i : ι) :
    pile.count i + (hands v).count i + (hands w).count i ≤ custody pile hands n i := by
  have hsum := Finset.add_sum_erase _ (fun v => (hands v).count i) (Finset.mem_range.mpr hv)
  have hsum' := Finset.add_sum_erase _ (fun v => (hands v).count i)
    (Finset.mem_erase.mpr ⟨hvw.symm, Finset.mem_range.mpr hw⟩)
  unfold custody
  omega

/-- Empty hands hold nothing. -/
theorem custody_eq_count (h : ∀ w < n, hands w = []) (i : ι) :
    custody pile hands n i = pile.count i := by
  have hsum : ∑ w ∈ Finset.range n, (hands w).count i = 0 :=
    Finset.sum_eq_zero fun w hw => by rw [h w (Finset.mem_range.mp hw), List.count_nil]
  unfold custody
  omega

end Hmdp.Lib
