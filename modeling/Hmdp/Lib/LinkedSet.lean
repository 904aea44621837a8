import Mathlib.Data.Finset.Card

/-!
# Linked sets

A Java `LinkedHashSet`: each element once, in the order of its first insertion.
-/

namespace Hmdp.Lib

/-- A `LinkedHashSet`: elements in insertion order, none twice. -/
structure LinkedSet (α : Type*) where
  elements : List α
  nodup : elements.Nodup

namespace LinkedSet

variable {α : Type*}

/-- The set without elements. -/
def empty : LinkedSet α := ⟨[], List.nodup_nil⟩

/-- How many elements it has. -/
def size (s : LinkedSet α) : ℕ := s.elements.length

variable [DecidableEq α]

/-- `add`: an element that is present stays where it is. -/
def add (s : LinkedSet α) (a : α) : LinkedSet α :=
  if h : a ∈ s.elements then s
  else ⟨s.elements ++ [a], List.nodup_append.mpr ⟨s.nodup, List.nodup_singleton a, by
    intro x hx y hy
    rw [List.mem_singleton.mp hy]
    rintro rfl
    exact h hx⟩⟩

/-- `addAll`. -/
def addAll (s : LinkedSet α) : List α → LinkedSet α
  | [] => s
  | a :: as => (s.add a).addAll as

theorem mem_add {s : LinkedSet α} {a x : α} : x ∈ (s.add a).elements ↔ x = a ∨ x ∈ s.elements := by
  unfold add
  split
  · rename_i h
    exact ⟨Or.inr, fun hx => hx.elim (fun he => he ▸ h) id⟩
  · simp [or_comm]

theorem mem_addAll {s : LinkedSet α} {as : List α} {x : α} :
    x ∈ (s.addAll as).elements ↔ x ∈ as ∨ x ∈ s.elements := by
  induction as generalizing s with
  | nil => simp [addAll]
  | cons a as ih =>
    rw [addAll, ih, mem_add, List.mem_cons]
    tauto

theorem size_eq_card (s : LinkedSet α) : s.size = s.elements.toFinset.card :=
  (List.toFinset_card_of_nodup s.nodup).symm

end LinkedSet

end Hmdp.Lib
