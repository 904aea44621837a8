import Mathlib.Data.List.Basic
import Mathlib.Data.List.Infix

/-!
# Absolute paths

A POSIX path as the list of its names from the root on. Repeated separators and one at the end make
no name. `normalize` takes out the names `.` and `..`, each `..` with the name before it; at the
root there is none to take.

* `names_append`, `names_stem`: the names of a text that is put together.
* `normal_normalize`: no `.` or `..` is left.
* `normalize_append`: names that are neither are kept.
-/

namespace Hmdp.Lib

/-- One name of a path. -/
abbrev Name := List Char

/-- The names of a path text. -/
def names (text : List Char) : List Name := (text.splitOn '/').filter fun name => !name.isEmpty

/-- A path text, read from a directory. -/
def resolve (base : List Name) (text : List Char) : List Name :=
  if text.head? = some '/' then names text else base ++ names text

/-- One more name; the names before it are last first. -/
def visit (before : List Name) (name : Name) : List Name :=
  if name = ['.'] then before else if name = ['.', '.'] then before.tail else name :: before

/-- The path without `.` and `..`. -/
def normalize (path : List Name) : List Name := (path.foldl visit []).reverse

/-- No name is `.` or `..`. -/
def Normal (path : List Name) : Prop := ∀ name ∈ path, name ≠ ['.'] ∧ name ≠ ['.', '.']

variable {text stem : List Char} {name : Name} {path rest : List Name} {c : Char}

/-! ## Names -/

@[simp] theorem names_nil : names [] = [] := rfl

theorem names_append (a b : List Char) : names (a ++ '/' :: b) = names a ++ names b := by
  rw [names, List.splitOn_append_cons_self, List.filter_append]
  rfl

@[simp] theorem names_slash (b : List Char) : names ('/' :: b) = names b := names_append [] b

theorem names_of_not_mem (h : '/' ∉ stem) (hne : stem ≠ []) : names stem = [stem] := by
  rw [names, List.splitOn_eq_singleton h]
  cases stem with
  | nil => exact absurd rfl hne
  | cons c cs => rfl

theorem splitOn_stem (h : '/' ∉ stem) (text : List Char) :
    (stem ++ text).splitOn '/' = (text.splitOn '/').modifyHead (stem ++ ·) := by
  induction stem with
  | nil =>
    cases hs : text.splitOn '/' with
    | nil => exact absurd hs (List.splitOn_ne_nil '/' text)
    | cons piece pieces => exact hs
  | cons c cs ih =>
    obtain ⟨hc, hcs⟩ := not_or.mp fun hmem => h (List.mem_cons.mpr hmem)
    rw [List.cons_append, List.splitOn_cons_eq_if_modifyHead, if_neg (by simpa using Ne.symm hc),
      ih hcs, List.modifyHead_modifyHead]
    rfl

theorem mem_of_mem_splitOn (hname : name ∈ text.splitOn '/') (hc : c ∈ name) : c ∈ text := by
  induction text generalizing name with
  | nil =>
    rw [List.splitOn_nil, List.mem_singleton] at hname
    exact absurd hc (by simp [hname])
  | cons x xs ih =>
    rw [List.splitOn_cons_eq_if_modifyHead] at hname
    split at hname
    · rcases List.mem_cons.mp hname with rfl | hname
      · cases hc
      · exact List.mem_cons_of_mem x (ih hname hc)
    · cases hs : xs.splitOn '/' with
      | nil => exact absurd hs (List.splitOn_ne_nil '/' xs)
      | cons piece pieces =>
        rw [hs, List.modifyHead_cons] at hname
        rcases List.mem_cons.mp hname with rfl | hname
        · refine (List.mem_cons.mp hc).elim (fun h => h ▸ List.mem_cons_self) fun h => ?_
          exact List.mem_cons_of_mem x (ih (hs ▸ List.mem_cons_self) h)
        · exact List.mem_cons_of_mem x (ih (hs ▸ List.mem_cons_of_mem piece hname) hc)

/-- A text that begins with a stem without separators: the stem is the beginning of the first
name. -/
theorem names_stem (h : '/' ∉ stem) (hne : stem ≠ []) (text : List Char) :
    ∃ head tail, names (stem ++ text) = (stem ++ head) :: tail ∧
      ∀ name ∈ tail, ∀ c ∈ name, c ∈ text := by
  cases hs : text.splitOn '/' with
  | nil => exact absurd hs (List.splitOn_ne_nil '/' text)
  | cons piece pieces =>
    refine ⟨piece, pieces.filter fun name => !name.isEmpty, ?_, fun name hname c hc => ?_⟩
    · rw [names, splitOn_stem h, hs, List.modifyHead_cons, List.filter_cons_of_pos (by simp [hne])]
    · have hmem : name ∈ text.splitOn '/' := by
        rw [hs]
        exact List.mem_cons_of_mem piece (List.mem_of_mem_filter hname)
      exact mem_of_mem_splitOn hmem hc

/-! ## Normal paths -/

theorem normal_append : Normal (path ++ rest) ↔ Normal path ∧ Normal rest := by
  simp only [Normal, List.forall_mem_append]

/-- Names without a dot. -/
theorem normal_of_no_dot (h : ∀ name ∈ path, '.' ∉ name) : Normal path := by
  intro name hname
  refine ⟨?_, ?_⟩ <;>
  · rintro rfl
    exact h _ hname List.mem_cons_self

theorem normal_visit {before : List Name} (h : Normal before) (name : Name) :
    Normal (visit before name) := by
  unfold visit
  split
  · exact h
  · rename_i hdot
    split
    · exact fun x hx => h x (List.mem_of_mem_tail hx)
    · rename_i hdots
      intro x hx
      rcases List.mem_cons.mp hx with rfl | hx
      · exact ⟨hdot, hdots⟩
      · exact h x hx

theorem normal_foldl {before : List Name} (h : Normal before) (path : List Name) :
    Normal (path.foldl visit before) := by
  induction path generalizing before with
  | nil => exact h
  | cons name path ih => exact ih (normal_visit h name)

/-- **A normalized path is normal.** -/
theorem normal_normalize (path : List Name) : Normal (normalize path) := fun name hname =>
  normal_foldl (List.forall_mem_nil _) path name (List.mem_reverse.mp hname)

theorem foldl_visit_of_normal (h : Normal rest) (before : List Name) :
    rest.foldl visit before = rest.reverse ++ before := by
  induction rest generalizing before with
  | nil => rfl
  | cons name rest ih =>
    obtain ⟨hdot, hdots⟩ := h name List.mem_cons_self
    rw [List.foldl_cons, ih fun x hx => h x (List.mem_cons_of_mem name hx), visit, if_neg hdot,
      if_neg hdots, List.reverse_cons, List.append_assoc]
    rfl

/-- **Normal names below a path** are kept. -/
theorem normalize_append (path : List Name) (h : Normal rest) :
    normalize (path ++ rest) = normalize path ++ rest := by
  rw [normalize, List.foldl_append, foldl_visit_of_normal h, List.reverse_append,
    List.reverse_reverse]
  rfl

theorem normalize_of_normal (h : Normal path) : normalize path = path := normalize_append [] h

end Hmdp.Lib
