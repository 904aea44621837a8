import Mathlib.Algebra.BigOperators.Group.List.Basic
import Mathlib.Algebra.Order.BigOperators.Group.List
import Mathlib.Data.List.Induction
import Mathlib.Data.List.Nodup
import Mathlib.Data.List.Perm.Basic

/-!
# Sums by key

The amounts of a list of entries, added up key by key: an association list with each key once.

* `mem_tally`: each key with the total of its entries.
* `mem_tally_part`: among the entries of a part, a key has its whole total exactly if none of its
  entries is outside.
-/

namespace Hmdp.Lib

variable {κ ν : Type*} [DecidableEq κ]

/-- Add an amount to the key's, or begin with it. -/
def addTo [Add ν] (key : κ) (x : ν) : List (κ × ν) → List (κ × ν)
  | [] => [(key, x)]
  | e :: sums => if e.1 = key then (key, e.2 + x) :: sums else e :: addTo key x sums

/-- The sum of the values of each key, keys in the order of their first entry. -/
def tally [Add ν] (entries : List (κ × ν)) : List (κ × ν) :=
  entries.foldl (fun sums e => addTo e.1 e.2 sums) []

/-- The amounts of a key, together. -/
def total [AddZeroClass ν] (key : κ) (entries : List (κ × ν)) : ν :=
  ((entries.filter fun e => e.1 = key).map Prod.snd).sum

section

variable [AddCommMonoid ν] {key : κ} {x y : ν} {sums entries rest : List (κ × ν)}

/-! ## Totals -/

theorem total_append (key : κ) (entries rest : List (κ × ν)) :
    total key (entries ++ rest) = total key entries + total key rest := by
  rw [total, List.filter_append, List.map_append, List.sum_append]
  rfl

theorem total_perm (h : entries.Perm rest) (key : κ) : total key entries = total key rest :=
  ((h.filter _).map Prod.snd).sum_eq

theorem total_eq_zero (h : ∀ e ∈ entries, e.1 ≠ key) : total key entries = 0 := by
  rw [total, List.filter_eq_nil_iff.mpr fun e he => by simpa using h e he]
  rfl

theorem total_singleton (key key' : κ) (x : ν) :
    total key [(key', x)] = if key' = key then x else 0 := by
  by_cases h : key' = key
  · simp [total, h]
  · simp [total, h]

/-! ## Sums -/

theorem keys_addTo (key : κ) (x : ν) (sums : List (κ × ν)) :
    (addTo key x sums).map Prod.fst =
      if key ∈ sums.map Prod.fst then sums.map Prod.fst else sums.map Prod.fst ++ [key] := by
  induction sums with
  | nil => rfl
  | cons e sums ih =>
    rw [addTo]
    by_cases h : e.1 = key
    · subst h
      simp
    · have hne : key ≠ e.1 := Ne.symm h
      rw [if_neg h, List.map_cons, ih]
      by_cases hin : key ∈ sums.map Prod.fst
      · rw [if_pos hin, if_pos (by rw [List.map_cons]; exact List.mem_cons_of_mem _ hin),
          List.map_cons]
      · have hout : key ∉ (e :: sums).map Prod.fst := by
          rw [List.map_cons]
          exact fun h' => (List.mem_cons.mp h').elim hne hin
        rw [if_neg hin, if_neg hout, List.map_cons, List.cons_append]

theorem nodup_addTo (h : (sums.map Prod.fst).Nodup) (key : κ) (x : ν) :
    ((addTo key x sums).map Prod.fst).Nodup := by
  rw [keys_addTo]
  split
  · exact h
  · rename_i hout
    refine List.nodup_append'.mpr ⟨h, List.nodup_singleton key, fun k hk hk' => hout ?_⟩
    rw [← List.mem_singleton.mp hk']
    exact hk

theorem mem_addTo_of_ne {e : κ × ν} (h : e.1 ≠ key) : e ∈ addTo key x sums ↔ e ∈ sums := by
  induction sums with
  | nil =>
    refine ⟨fun he => ?_, fun he => by cases he⟩
    rw [addTo, List.mem_singleton] at he
    exact absurd (congrArg Prod.fst he) h
  | cons e' sums ih =>
    rw [addTo]
    split
    · rename_i hkey
      rw [List.mem_cons, List.mem_cons]
      refine or_congr_left ⟨fun he => ?_, fun he => ?_⟩
      · exact absurd (congrArg Prod.fst he) h
      · exact absurd ((congrArg Prod.fst he).trans hkey) h
    · rw [List.mem_cons, List.mem_cons, ih]

/-- The sum of the key itself. -/
theorem mem_addTo_self (h : (sums.map Prod.fst).Nodup) (hmem : (key, y) ∈ addTo key x sums) :
    key ∉ sums.map Prod.fst ∧ y = x ∨ ∃ z, (key, z) ∈ sums ∧ y = z + x := by
  induction sums with
  | nil =>
    rw [addTo, List.mem_singleton] at hmem
    exact Or.inl ⟨List.not_mem_nil, congrArg Prod.snd hmem⟩
  | cons e sums ih =>
    rw [List.map_cons, List.nodup_cons] at h
    rw [addTo] at hmem
    split at hmem
    · rename_i hkey
      rcases List.mem_cons.mp hmem with heq | hin
      · refine Or.inr ⟨e.2, ?_, congrArg Prod.snd heq⟩
        rw [← hkey]
        exact List.mem_cons_self
      · exact absurd (hkey ▸ List.mem_map_of_mem hin) h.1
    · rename_i hkey
      rcases List.mem_cons.mp hmem with heq | hin
      · exact absurd (congrArg Prod.fst heq).symm hkey
      · rcases ih h.2 hin with ⟨hout, hy⟩ | ⟨z, hz, hy⟩
        · refine Or.inl ⟨fun h' => ?_, hy⟩
          exact (List.mem_cons.mp h').elim (fun heq => hkey heq.symm) hout
        · exact Or.inr ⟨z, List.mem_cons_of_mem _ hz, hy⟩

theorem tally_append (entries : List (κ × ν)) (e : κ × ν) :
    tally (entries ++ [e]) = addTo e.1 e.2 (tally entries) := by
  rw [tally, List.foldl_append]
  rfl

theorem nodup_tally (entries : List (κ × ν)) : ((tally entries).map Prod.fst).Nodup := by
  induction entries using List.reverseRecOn with
  | nil => exact List.nodup_nil
  | append_singleton entries e ih =>
    rw [tally_append]
    exact nodup_addTo ih e.1 e.2

theorem keys_tally (entries : List (κ × ν)) (key : κ) :
    key ∈ (tally entries).map Prod.fst ↔ key ∈ entries.map Prod.fst := by
  induction entries using List.reverseRecOn with
  | nil => rfl
  | append_singleton entries e ih =>
    rw [tally_append, keys_addTo, List.map_append, List.mem_append, ← ih, List.map_singleton,
      List.mem_singleton]
    split
    · rename_i hin
      exact ⟨Or.inl, fun h => h.elim id fun h => h ▸ hin⟩
    · rw [List.mem_append, List.mem_singleton]

theorem eq_total_of_mem_tally (h : (key, x) ∈ tally entries) : x = total key entries := by
  induction entries using List.reverseRecOn generalizing x with
  | nil => cases h
  | append_singleton entries e ih =>
    obtain ⟨key', y⟩ := e
    rw [tally_append] at h
    rw [total_append, total_singleton]
    by_cases hkey : key' = key
    · subst hkey
      rw [if_pos rfl]
      rcases mem_addTo_self (nodup_tally entries) h with ⟨hout, hx⟩ | ⟨z, hz, hx⟩
      · rw [keys_tally] at hout
        rw [hx, total_eq_zero, zero_add]
        exact fun e he heq => hout (List.mem_map.mpr ⟨e, he, heq⟩)
      · rw [hx, ih hz]
    · rw [if_neg hkey, add_zero]
      exact ih ((mem_addTo_of_ne (Ne.symm hkey)).mp h)

/-- **A key and its sum.** -/
theorem mem_tally :
    (key, x) ∈ tally entries ↔ key ∈ entries.map Prod.fst ∧ x = total key entries := by
  refine ⟨fun h => ⟨(keys_tally entries key).mp (List.mem_map_of_mem h),
    eq_total_of_mem_tally h⟩, ?_⟩
  rintro ⟨hkey, rfl⟩
  obtain ⟨⟨key', y⟩, hmem, rfl⟩ := List.mem_map.mp ((keys_tally entries key).mpr hkey)
  rw [← eq_total_of_mem_tally hmem]
  exact hmem

end

/-! ## A part of the entries -/

section

variable [AddCommMonoid ν] [PartialOrder ν] [IsOrderedCancelAddMonoid ν] {key : κ} {x : ν}
  {entries part rest : List (κ × ν)}

theorem total_nonneg (hpos : ∀ e ∈ entries, 0 < e.2) (key : κ) : 0 ≤ total key entries := by
  refine List.sum_nonneg fun y hy => ?_
  obtain ⟨e, he, rfl⟩ := List.mem_map.mp hy
  exact (hpos e (List.mem_of_mem_filter he)).le

theorem total_pos (hpos : ∀ e ∈ entries, 0 < e.2) (hkey : key ∈ entries.map Prod.fst) :
    0 < total key entries := by
  induction entries with
  | nil => cases hkey
  | cons e entries ih =>
    have hrest : ∀ e ∈ entries, 0 < e.2 := fun e he => hpos e (List.mem_cons_of_mem _ he)
    rw [← List.singleton_append, total_append, total_singleton]
    by_cases h : e.1 = key
    · rw [if_pos h]
      exact add_pos_of_pos_of_nonneg (hpos e List.mem_cons_self) (total_nonneg hrest key)
    · rw [if_neg h, zero_add]
      exact ih hrest ((List.mem_cons.mp hkey).resolve_left (Ne.symm h))

/-- Over a part, no key sums to more. -/
theorem total_part_le (hsplit : entries.Perm (part ++ rest)) (hpos : ∀ e ∈ entries, 0 < e.2)
    (key : κ) : total key part ≤ total key entries := by
  rw [total_perm hsplit, total_append]
  refine le_add_of_nonneg_right (total_nonneg (fun e he => hpos e ?_) key)
  exact hsplit.mem_iff.mpr (List.mem_append_right _ he)

/-- **A whole sum.** A key of the entries has its sum in the tally of a part if and only if none of
its entries is outside. -/
theorem mem_tally_part (hsplit : entries.Perm (part ++ rest)) (hpos : ∀ e ∈ entries, 0 < e.2)
    (hmem : (key, x) ∈ tally entries) :
    (key, x) ∈ tally part ↔ ∀ e ∈ rest, e.1 ≠ key := by
  obtain ⟨hkey, rfl⟩ := mem_tally.mp hmem
  have hrest : ∀ e ∈ rest, 0 < e.2 := fun e he =>
    hpos e (hsplit.mem_iff.mpr (List.mem_append_right _ he))
  constructor
  · intro h e he hout
    have heq : total key entries = total key part := (mem_tally.mp h).2
    rw [total_perm hsplit, total_append, add_eq_left] at heq
    exact (total_pos hrest (hout ▸ List.mem_map_of_mem he)).ne' heq
  · intro h
    refine mem_tally.mpr ⟨?_, ?_⟩
    · obtain ⟨e, he, rfl⟩ := List.mem_map.mp hkey
      refine List.mem_map_of_mem ?_
      exact (List.mem_append.mp (hsplit.mem_iff.mp he)).resolve_right fun h' => h e h' rfl
    · rw [total_perm hsplit, total_append, total_eq_zero h, add_zero]

end

end Hmdp.Lib
