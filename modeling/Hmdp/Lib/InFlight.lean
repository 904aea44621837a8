import Mathlib.Algebra.BigOperators.Finprod
import Mathlib.Algebra.BigOperators.Group.Finset.Basic
import Mathlib.Algebra.Order.BigOperators.Group.Finset
import Mathlib.Data.Int.Order.Basic

/-!
# What is in flight

Any number of participants, of which finitely many are at work, each carrying an amount that has
left one store and not reached another. `InFlight weight f n` says that together they carry `n`.

* `InFlight.update`: a participant moves on.
* `InFlight.eq_zero`: nobody carries anything.
* `InFlight.le`, `InFlight.nonneg`: bounds where no amount is negative.
* `InFlight.finsum_eq`: the sum over all participants.
-/

namespace Hmdp.Lib

variable {ι φ : Type*} [DecidableEq ι]

/-- The participants in `f` together carry `n`; all but finitely many carry nothing. -/
def InFlight (weight : φ → ℤ) (f : ι → φ) (n : ℤ) : Prop :=
  ∃ J : Finset ι, (∀ i, i ∉ J → weight (f i) = 0) ∧ ∑ i ∈ J, weight (f i) = n

namespace InFlight

variable {weight : φ → ℤ} {f : ι → φ} {n : ℤ}

omit [DecidableEq ι] in
theorem of_forall (h : ∀ i, weight (f i) = 0) : InFlight weight f 0 :=
  ⟨∅, fun i _ => h i, Finset.sum_empty⟩

omit [DecidableEq ι] in
theorem eq_zero (h : InFlight weight f n) (hzero : ∀ i, weight (f i) = 0) : n = 0 := by
  obtain ⟨J, -, rfl⟩ := h
  exact Finset.sum_eq_zero fun i _ => hzero i

omit [DecidableEq ι] in
/-- The amounts, summed over all participants. -/
theorem finsum_eq (h : InFlight weight f n) : ∑ᶠ i, weight (f i) = n := by
  obtain ⟨J, hout, rfl⟩ := h
  refine finsum_eq_sum_of_support_subset _ fun i hi => ?_
  by_contra hJ
  exact hi (hout i hJ)

omit [DecidableEq ι] in
/-- Where no amount is negative, nobody carries more than all together. -/
theorem le (h : InFlight weight f n) (hweight : ∀ x, 0 ≤ weight x) (i : ι) : weight (f i) ≤ n := by
  obtain ⟨J, hout, rfl⟩ := h
  by_cases hi : i ∈ J
  · exact Finset.single_le_sum (fun j _ => hweight (f j)) hi
  · rw [hout i hi]
    exact Finset.sum_nonneg fun j _ => hweight (f j)

omit [DecidableEq ι] in
theorem nonneg (h : InFlight weight f n) (hweight : ∀ x, 0 ≤ weight x) : 0 ≤ n := by
  obtain ⟨J, -, rfl⟩ := h
  exact Finset.sum_nonneg fun j _ => hweight (f j)

/-- One participant moves on. -/
theorem update (h : InFlight weight f n) (i : ι) (x : φ) :
    InFlight weight (Function.update f i x) (n - weight (f i) + weight x) := by
  obtain ⟨J, hout, hsum⟩ := h
  refine ⟨insert i J, fun j hj => ?_, ?_⟩
  · have hne : j ≠ i := fun he => hj (he ▸ Finset.mem_insert_self i J)
    rw [Function.update_of_ne hne]
    exact hout j fun hmem => hj (Finset.mem_insert_of_mem hmem)
  · have hrest : ∑ j ∈ J.erase i, weight (Function.update f i x j) =
        ∑ j ∈ J.erase i, weight (f j) :=
      Finset.sum_congr rfl fun j hj => by rw [Function.update_of_ne (Finset.ne_of_mem_erase hj)]
    have hall : ∑ j ∈ insert i J, weight (f j) = n := by
      by_cases hi : i ∈ J
      · rw [Finset.insert_eq_of_mem hi, hsum]
      · rw [Finset.sum_insert hi, hout i hi, zero_add, hsum]
    rw [← Finset.add_sum_erase _ _ (Finset.mem_insert_self i J), Finset.erase_insert_eq_erase]
      at hall ⊢
    rw [hrest, Function.update_self, ← hall]
    omega

/-- A move that leaves the amount of a participant as it is. -/
theorem update_same (h : InFlight weight f n) {i : ι} {x : φ} (hx : weight x = weight (f i)) :
    InFlight weight (Function.update f i x) n := by
  have hmoved := h.update i x
  rwa [hx, sub_add_cancel] at hmoved

end InFlight

end Hmdp.Lib
