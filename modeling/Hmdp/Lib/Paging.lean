import Mathlib.Data.List.Basic
import Mathlib.Order.Lattice

/-!
# Paging with a key and an offset

A list in descending order of a key that is read page by page. A cursor is a key `max` and an
offset: the next page begins in the entries whose key is at most `max`, after the first `offset`
of them. When it is made of the last page alone, as the key of the page's last entry and the number
of the page's entries that have it, nothing is read twice exactly if no earlier page has that key:
the entries of earlier pages are not in the offset.

* `filter_le_eq_drop`: what a key leaves is a suffix.
* **`resume_eq_drop`**: where the cursor of a page goes on.
* `resume_clean`, `resume_unclean`: after the page, or at an entry already read.
-/

namespace Hmdp.Lib

variable {α β : Type*} [LinearOrder β] (key : α → β)

/-- What is left from the cursor on. -/
def resume (max : β) (offset : ℕ) (xs : List α) : List α :=
  (xs.filter fun x => decide (key x ≤ max)).drop offset

variable {key} {xs before page rest : List α} {max : β}

theorem filter_le_eq_drop (hsorted : xs.Pairwise fun x y => key y ≤ key x) (max : β) :
    xs.filter (fun x => decide (key x ≤ max)) =
      xs.drop (xs.countP fun x => decide (max < key x)) := by
  induction xs with
  | nil => rfl
  | cons x xs ih =>
    have hrest := List.pairwise_cons.mp hsorted
    by_cases hx : key x ≤ max
    · have hall : ∀ y ∈ x :: xs, key y ≤ max := by
        intro y hy
        rcases List.mem_cons.mp hy with rfl | hy
        · exact hx
        · exact (hrest.1 y hy).trans hx
      have hzero : (x :: xs).countP (fun y => decide (max < key y)) = 0 :=
        List.countP_eq_zero.mpr fun y hy => by simpa using hall y hy
      rw [hzero, List.drop_zero, List.filter_eq_self.mpr fun y hy => by simpa using hall y hy]
    · rw [List.filter_cons_of_neg (by simpa using hx), ih hrest.2,
        List.countP_cons_of_pos (by simpa using hx), List.drop_succ_cons]

/-- In a descending page the entries are above the last one's key or have it. -/
theorem countP_page (hsorted : page.Pairwise fun x y => key y ≤ key x) {last : α}
    (hlast : page.getLast? = some last) :
    page.countP (fun x => decide (key last < key x)) +
      page.countP (fun x => decide (key x = key last)) = page.length := by
  have hle : ∀ x ∈ page, key last ≤ key x := by
    obtain ⟨init, rfl⟩ := List.getLast?_eq_some_iff.mp hlast
    intro x hx
    rcases List.mem_append.mp hx with hx | hx
    · exact (List.pairwise_append.mp hsorted).2.2 x hx last List.mem_cons_self
    · rw [List.mem_singleton.mp hx]
  rw [List.length_eq_countP_add_countP fun x => decide (key last < key x)]
  congr 1
  refine List.countP_congr fun x hx => ?_
  simp only [decide_eq_true_eq, not_lt]
  exact ⟨fun h => h.le, fun h => le_antisymm h (hle x hx)⟩

/-- **Where the cursor of a page goes on**: what earlier pages have with the last key counts a
second time. -/
theorem resume_eq_drop (hsorted : (before ++ (page ++ rest)).Pairwise fun x y => key y ≤ key x)
    {last : α} (hlast : page.getLast? = some last) :
    resume key (key last) (page.countP fun x => decide (key x = key last))
        (before ++ (page ++ rest)) =
      (before ++ (page ++ rest)).drop
        (before.countP (fun x => decide (key last < key x)) + page.length) := by
  obtain ⟨-, hpage, -⟩ := List.pairwise_append.mp hsorted
  obtain ⟨hpage, -, hrest⟩ := List.pairwise_append.mp hpage
  have hmem : last ∈ page := List.mem_of_getLast? hlast
  have hzero : rest.countP (fun x => decide (key last < key x)) = 0 :=
    List.countP_eq_zero.mpr fun x hx => by simpa using hrest last hmem x hx
  rw [resume, filter_le_eq_drop hsorted, List.drop_drop, List.countP_append, List.countP_append,
    hzero, ← countP_page hpage hlast, Nat.add_zero, Nat.add_assoc]

/-- No earlier entry has the last key: the cursor goes on after the page. -/
theorem resume_clean (hsorted : (before ++ (page ++ rest)).Pairwise fun x y => key y ≤ key x)
    {last : α} (hlast : page.getLast? = some last) (hclean : ∀ x ∈ before, key last < key x) :
    resume key (key last) (page.countP fun x => decide (key x = key last))
      (before ++ (page ++ rest)) = rest := by
  have hall : before.countP (fun x => decide (key last < key x)) = before.length :=
    List.countP_eq_length.mpr fun x hx => by simpa using hclean x hx
  rw [resume_eq_drop hsorted hlast, hall, ← List.length_append, ← List.append_assoc,
    List.drop_left]

/-- An earlier entry has the last key: the cursor goes on at an entry that has been read. -/
theorem resume_unclean (hsorted : (before ++ (page ++ rest)).Pairwise fun x y => key y ≤ key x)
    {last : α} (hlast : page.getLast? = some last) {x : α} (hx : x ∈ before)
    (hle : ¬ key last < key x) :
    ∃ y ys, resume key (key last) (page.countP fun x => decide (key x = key last))
      (before ++ (page ++ rest)) = y :: ys ∧ y ∈ before ++ page := by
  have hlt : before.countP (fun x => decide (key last < key x)) < before.length := by
    refine Nat.lt_of_le_of_ne List.countP_le_length fun h => hle ?_
    simpa using List.countP_eq_length.mp h x hx
  set n := before.countP (fun x => decide (key last < key x)) + page.length with hn
  have hbound : n < (before ++ page).length := by
    rw [List.length_append]
    omega
  refine ⟨(before ++ page)[n], (before ++ (page ++ rest)).drop (n + 1), ?_, List.getElem_mem hbound⟩
  rw [resume_eq_drop hsorted hlast, ← hn, ← List.append_assoc, List.drop_eq_getElem_cons
    (by rw [List.length_append]; omega), List.getElem_append_left hbound]

/-- In a descending list only the last earlier entry needs a look. -/
theorem clean_iff (hsorted : (before ++ page).Pairwise fun x y => key y ≤ key x) {last : α}
    (hlast : last ∈ page) :
    (∀ x ∈ before, key last < key x) ↔ ∀ x ∈ before.getLast?, key x ≠ key last := by
  obtain ⟨hbefore, -, hcross⟩ := List.pairwise_append.mp hsorted
  constructor
  · exact fun h x hx => (h x (List.mem_of_getLast? hx)).ne'
  · intro h x hx
    obtain ⟨y, hy⟩ := Option.isSome_iff_exists.mp
      (List.getLast?_isSome.mpr (List.ne_nil_of_mem hx))
    have hmem : y ∈ before := List.mem_of_getLast? hy
    have hlt : key last < key y := lt_of_le_of_ne (hcross y hmem last hlast) (h y hy).symm
    obtain ⟨init, rfl⟩ := List.getLast?_eq_some_iff.mp hy
    rcases List.mem_append.mp hx with hx | hx
    · exact hlt.trans_le ((List.pairwise_append.mp hbefore).2.2 x hx y List.mem_cons_self)
    · rw [List.mem_singleton.mp hx]
      exact hlt

end Hmdp.Lib
