import Mathlib.Data.List.Sort
import Mathlib.Logic.Function.Basic
import Mathlib.Order.Lattice

/-!
# Rankings

Sorting by a key, and what a ranking of part of the data says about the ranking of all of it.

* `sortOn_unique`: with distinct keys, sorted is sorted.
* `mapM_eq_some_iff`: a loop that may fail on an entry.
* `putAll_eq_some`: a map filled with entries of distinct keys.
* `flatMap_pages`: the pages of a list, put together.
* **`take_sortOn_eq_iff`**: what ranks first among all ranks first among a part in which nothing
  ranks before its place among all, exactly if it is in the part.
-/

namespace Hmdp.Lib

variable {α κ : Type*} [LinearOrder κ] {key : α → κ} {xs ys : List α} {n : ℕ}

/-- The list in ascending order of the key; entries of one key keep their order. -/
def sortOn (key : α → κ) (xs : List α) : List α := xs.insertionSort fun a b => key a ≤ key b

theorem sortOn_perm (key : α → κ) (xs : List α) : (sortOn key xs).Perm xs :=
  List.perm_insertionSort _ xs

@[simp] theorem mem_sortOn {a : α} : a ∈ sortOn key xs ↔ a ∈ xs := (sortOn_perm key xs).mem_iff

@[simp] theorem length_sortOn : (sortOn key xs).length = xs.length :=
  (sortOn_perm key xs).length_eq

theorem sortOn_sorted (key : α → κ) (xs : List α) :
    (sortOn key xs).Pairwise fun a b => key a ≤ key b := by
  have htrans : IsTrans α fun a b => key a ≤ key b := ⟨fun _ _ _ => le_trans⟩
  have htotal : Std.Total fun a b : α => key a ≤ key b := ⟨fun a b => le_total (key a) (key b)⟩
  exact List.pairwise_insertionSort _ xs

/-- **One order**: a sorted arrangement of entries with distinct keys is the sorted list. -/
theorem sortOn_unique (hkeys : ∀ a ∈ xs, ∀ b ∈ xs, key a = key b → a = b) (hperm : ys.Perm xs)
    (hsorted : ys.Pairwise fun a b => key a ≤ key b) : sortOn key xs = ys := by
  refine List.Perm.eq_of_pairwise (fun a b ha hb hab hba => ?_) (sortOn_sorted key xs) hsorted
    ((sortOn_perm key xs).trans hperm.symm)
  exact hkeys a (mem_sortOn.mp ha) b (hperm.mem_iff.mp hb) (le_antisymm hab hba)

/-! ## Loops that may fail -/

/-- A loop that maps each entry succeeds if each entry does, with their results. -/
theorem mapM_eq_some_iff {β : Type*} {f : α → Option β} {ys : List β} :
    xs.mapM f = some ys ↔ (∀ a ∈ xs, (f a).isSome) ∧ ys = xs.filterMap f := by
  induction xs generalizing ys with
  | nil =>
    rw [List.mapM_nil, List.filterMap_nil]
    exact ⟨fun h => ⟨by simp, (Option.some.inj h).symm⟩, fun h => congrArg some h.2.symm⟩
  | cons a xs ih =>
    rw [List.mapM_cons, List.forall_mem_cons]
    cases hf : f a with
    | none => simp
    | some b =>
      rw [List.filterMap_cons_some hf]
      simp only [Option.bind_eq_bind, Option.bind_some, Option.bind_eq_some_iff, ih,
        Option.isSome_some, true_and]
      constructor
      · rintro ⟨zs, ⟨hall, rfl⟩, hys⟩
        cases hys
        exact ⟨hall, rfl⟩
      · rintro ⟨hall, rfl⟩
        exact ⟨_, ⟨hall, rfl⟩, rfl⟩

/-! ## Maps that are filled entry by entry -/

section

variable {ι ν : Type*} [DecidableEq ι] {entries : List (ι × ν)} {i : ι} {x : ν}

/-- `map.put` of every entry, one after the other. -/
def putAll (entries : List (ι × ν)) (map : ι → Option ν) : ι → Option ν :=
  entries.foldl (fun map e => Function.update map e.1 (some e.2)) map

/-- With each key once, the map is the entries. -/
theorem putAll_eq_some (h : (entries.map Prod.fst).Nodup) :
    putAll entries (fun _ => none) i = some x ↔ (i, x) ∈ entries := by
  suffices hgen : ∀ map : ι → Option ν, (∀ e ∈ entries, map e.1 = none) →
      (putAll entries map i = some x ↔ (i, x) ∈ entries ∨ map i = some x) by
    simpa using hgen (fun _ => none) fun _ _ => rfl
  induction entries with
  | nil => simp [putAll]
  | cons e entries ih =>
    intro map hmap
    rw [List.map_cons, List.nodup_cons] at h
    have hrest : ∀ e' ∈ entries, Function.update map e.1 (some e.2) e'.1 = none := by
      intro e' he'
      have hne : e'.1 ≠ e.1 := fun heq => h.1 (List.mem_map.mpr ⟨e', he', heq⟩)
      rw [Function.update_of_ne hne]
      exact hmap e' (List.mem_cons_of_mem e he')
    show putAll entries (Function.update map e.1 (some e.2)) i = some x ↔ _
    rw [ih h.2 _ hrest, List.mem_cons]
    by_cases hi : i = e.1
    · subst hi
      rw [Function.update_self, Option.some.injEq, hmap e List.mem_cons_self, Prod.ext_iff]
      simp only [true_and, reduceCtorEq, or_false]
      rw [or_comm, eq_comm]
    · rw [Function.update_of_ne hi, Prod.ext_iff]
      simp only [hi, false_and, false_or]

end

/-! ## Pages and parts -/

/-- **Pages.** -/
theorem flatMap_pages (xs : List α) (size count : ℕ) :
    (List.range count).flatMap (fun i => (xs.drop (size * i)).take size) =
      xs.take (size * count) := by
  induction count with
  | zero => simp
  | succ count ih =>
    rw [List.range_succ, List.flatMap_append, ih, Nat.mul_succ, List.take_add]
    simp

section

variable [DecidableEq α]

/-- A part that has the first entries: they come first in it, too. -/
theorem sortOn_eq_append (hkeys : ∀ a ∈ ys, ∀ b ∈ ys, key a = key b → a = b)
    (hnodup : xs.Nodup) (hpart : ys.Nodup)
    (hfrom : ∀ b ∈ ys, ∃ a ∈ xs, key a ≤ key b ∧ (a ∈ ys → a = b))
    (hfirst : ∀ a ∈ (sortOn key xs).take n, a ∈ ys) :
    ∃ rest, sortOn key ys = (sortOn key xs).take n ++ rest ∧
      (rest ≠ [] → (sortOn key xs).drop n ≠ []) := by
  set first := (sortOn key xs).take n with hfirstDef
  have hsplit : first ++ (sortOn key xs).drop n = sortOn key xs := List.take_append_drop n _
  have hsorted : (first ++ (sortOn key xs).drop n).Pairwise fun a b => key a ≤ key b :=
    hsplit.symm ▸ sortOn_sorted key xs
  obtain ⟨hfirstSorted, -, hcross⟩ := List.pairwise_append.mp hsorted
  -- what else is in the part comes from an entry after the first ones
  have hafter : ∀ b ∈ ys, b ∉ first → ∃ a ∈ (sortOn key xs).drop n, key a ≤ key b := by
    intro b hb hnot
    obtain ⟨a, ha, hle, hself⟩ := hfrom b hb
    have hin : a ∈ first ++ (sortOn key xs).drop n := hsplit.symm ▸ mem_sortOn.mpr ha
    refine ⟨a, (List.mem_append.mp hin).resolve_left fun hin => hnot ?_, hle⟩
    rw [← hself (hfirst a hin)]
    exact hin
  refine ⟨sortOn key (ys.filter fun b => b ∉ first), sortOn_unique hkeys ?_ ?_, fun hne hnil => ?_⟩
  · have hfirstNodup : first.Nodup :=
      ((sortOn_perm key xs).nodup_iff.mpr hnodup).sublist (List.take_sublist n _)
    refine (List.Perm.append_left first (sortOn_perm key _)).trans ?_
    refine (List.perm_ext_iff_of_nodup ?_ hpart).mpr fun b => ?_
    · refine List.nodup_append'.mpr ⟨hfirstNodup, hpart.filter _, fun b hb hb' => ?_⟩
      exact of_decide_eq_true (List.mem_filter.mp hb').2 hb
    · rw [List.mem_append, List.mem_filter, decide_eq_true_eq]
      constructor
      · rintro (hb | hb)
        · exact hfirst b hb
        · exact hb.1
      · intro hb
        by_cases hin : b ∈ first
        · exact Or.inl hin
        · exact Or.inr ⟨hb, hin⟩
  · refine List.pairwise_append.mpr ⟨hfirstSorted, sortOn_sorted key _, fun a ha b hb => ?_⟩
    obtain ⟨hb, hnot⟩ := List.mem_filter.mp (mem_sortOn.mp hb)
    obtain ⟨a', ha', hle⟩ := hafter b hb (of_decide_eq_true hnot)
    exact (hcross a ha a' ha').trans hle
  · obtain ⟨b, hb⟩ := List.exists_mem_of_ne_nil _ hne
    obtain ⟨hb, hnot⟩ := List.mem_filter.mp (mem_sortOn.mp hb)
    obtain ⟨a', ha', -⟩ := hafter b hb (of_decide_eq_true hnot)
    rw [hnil] at ha'
    cases ha'

/-- **What ranks first in a part.** Nothing in the part `ys` ranks before the entry of `xs` it comes
from, and such an entry is in the part only as itself. -/
theorem take_sortOn_eq_iff (hkeys : ∀ a ∈ ys, ∀ b ∈ ys, key a = key b → a = b)
    (hnodup : xs.Nodup) (hpart : ys.Nodup)
    (hfrom : ∀ b ∈ ys, ∃ a ∈ xs, key a ≤ key b ∧ (a ∈ ys → a = b)) :
    (sortOn key ys).take n = (sortOn key xs).take n ↔ ∀ a ∈ (sortOn key xs).take n, a ∈ ys := by
  constructor
  · intro h a ha
    rw [← h] at ha
    exact mem_sortOn.mp (List.mem_of_mem_take ha)
  · intro hfirst
    obtain ⟨rest, heq, hrest⟩ := sortOn_eq_append hkeys hnodup hpart hfrom hfirst
    have hnone : rest.take (n - ((sortOn key xs).take n).length) = [] := by
      by_cases hnil : rest = []
      · rw [hnil, List.take_nil]
      · have hlength : n < (sortOn key xs).length := by
          by_contra hle
          exact hrest hnil (List.drop_eq_nil_of_le (not_lt.mp hle))
        rw [List.length_take, min_eq_left hlength.le, Nat.sub_self, List.take_zero]
    rw [heq, List.take_append, hnone, List.append_nil, List.take_take, min_self]

end

end Hmdp.Lib
