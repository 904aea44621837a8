import Mathlib.Data.List.Nodup
import Mathlib.Data.List.Pairwise

/-!
# Tables with unique keys

A table is the list of its rows in insertion order, no two of which clash: `clash r s` says that
`r` and `s` agree on some unique key. A multi-row `INSERT IGNORE` tries the rows in order and
skips one that clashes with a row already there, an earlier row of the same statement included.
The rows the statement really inserts are `newRows`, so the table after it is the old one
followed by them and the reported row count is their number. An `UPDATE` rewrites the selected
rows without touching a unique column. Both keep the unique keys, which `Table` carries as a
field.

* `pairwise_insertIgnore`: the unique keys hold after the statement if they held before.
* `insertIgnore_append`: a statement may be split anywhere.
* `insertIgnore_covers`: every row of the statement clashes with a row of the new table.
* `newRows_eq_filter`: rows that do not clash with one another are inserted iff they do not clash
  with the old table.
* `insertIgnore_key`: on a single key, the new table holds exactly the old keys and the new ones.
* `filter_newRows_key`: keeping the first row of each key commutes with a filter on the key.
* `Table.mem_update`: a row of the updated table is an old row, rewritten iff it was selected.
-/

namespace Hmdp.Lib

variable {ρ : Type*}

/-- The rows of a statement that are really inserted into `table`. -/
def newRows (clash : ρ → ρ → Bool) : List ρ → List ρ → List ρ
  | _, [] => []
  | table, r :: rs =>
    if table.any (clash r) then newRows clash table rs
    else r :: newRows clash (table ++ [r]) rs

/-- The table after the statement. -/
def insertIgnore (clash : ρ → ρ → Bool) (table rows : List ρ) : List ρ :=
  table ++ newRows clash table rows

variable {clash : ρ → ρ → Bool} {table rows : List ρ}

theorem newRows_sublist (table rows : List ρ) : (newRows clash table rows).Sublist rows := by
  induction rows generalizing table with
  | nil => exact List.Sublist.slnil
  | cons r rs ih =>
    unfold newRows
    split
    · exact (ih table).cons r
    · exact (ih (table ++ [r])).cons_cons r

theorem mem_rows_of_mem_newRows {r : ρ} (h : r ∈ newRows clash table rows) : r ∈ rows :=
  (newRows_sublist table rows).subset h

/-- **The unique keys survive**: no two rows of the new table clash if no two of the old one do. -/
theorem pairwise_insertIgnore (hsymm : ∀ a b, clash a b = clash b a)
    (h : table.Pairwise (fun a b => clash a b = false)) :
    (insertIgnore clash table rows).Pairwise (fun a b => clash a b = false) := by
  induction rows generalizing table with
  | nil => simpa [insertIgnore, newRows] using h
  | cons r rs ih =>
    unfold insertIgnore newRows
    split
    · exact ih h
    · rename_i hany
      have hr : (table ++ [r]).Pairwise (fun a b => clash a b = false) := by
        refine List.pairwise_append.mpr ⟨h, List.pairwise_singleton _ _, fun a ha b hb => ?_⟩
        rw [List.mem_singleton.mp hb, hsymm]
        by_contra hc
        exact hany (List.any_eq_true.mpr ⟨a, ha, by simpa using hc⟩)
      have := ih hr
      unfold insertIgnore at this
      rwa [List.append_assoc] at this

theorem insertIgnore_cons (table : List ρ) (r : ρ) (rows : List ρ) :
    insertIgnore clash table (r :: rows) =
      insertIgnore clash (if table.any (clash r) then table else table ++ [r]) rows := by
  unfold insertIgnore
  rw [newRows]
  split
  · rfl
  · rw [List.append_assoc, List.singleton_append]

/-- **A statement in two parts** is the one statement after the other. -/
theorem insertIgnore_append (table rows rows' : List ρ) :
    insertIgnore clash table (rows ++ rows') =
      insertIgnore clash (insertIgnore clash table rows) rows' := by
  induction rows generalizing table with
  | nil => simp [insertIgnore, newRows]
  | cons r rs ih => rw [List.cons_append, insertIgnore_cons, insertIgnore_cons, ih]

/-- An inserted row clashes with no row of the old table. -/
theorem not_clash_of_mem_newRows {r s : ρ} (hr : r ∈ newRows clash table rows) (hs : s ∈ table) :
    clash r s = false := by
  induction rows generalizing table with
  | nil => exact absurd hr (by simp [newRows])
  | cons r' rs ih =>
    unfold newRows at hr
    split at hr
    · exact ih hr hs
    · rename_i hany
      rcases List.mem_cons.mp hr with rfl | hr
      · by_contra hc
        exact hany (List.any_eq_true.mpr ⟨s, hs, by simpa using hc⟩)
      · exact ih hr (List.mem_append_left _ hs)

/-- **Nothing is lost silently**: every row of the statement clashes with a row of the new
table. -/
theorem insertIgnore_covers (hrefl : ∀ a, clash a a = true) {r : ρ} (h : r ∈ rows) :
    ∃ s ∈ insertIgnore clash table rows, clash r s = true := by
  induction rows generalizing table with
  | nil => exact absurd h (by simp)
  | cons r' rs ih =>
    unfold insertIgnore newRows
    split
    · rename_i hany
      rcases List.mem_cons.mp h with rfl | h
      · obtain ⟨s, hs, hc⟩ := List.any_eq_true.mp hany
        exact ⟨s, List.mem_append_left _ hs, hc⟩
      · exact ih h
    · rcases List.mem_cons.mp h with rfl | h
      · exact ⟨r, List.mem_append_right _ List.mem_cons_self, hrefl r⟩
      · obtain ⟨s, hs, hc⟩ := @ih (table ++ [r']) h
        unfold insertIgnore at hs
        rw [List.append_assoc] at hs
        exact ⟨s, hs, hc⟩

/-- **Rows that do not clash with one another** are inserted iff they do not clash with the old
table. -/
theorem newRows_eq_filter (hsymm : ∀ a b, clash a b = clash b a)
    (h : rows.Pairwise (fun a b => clash a b = false)) :
    newRows clash table rows = rows.filter fun r => !table.any (clash r) := by
  induction rows generalizing table with
  | nil => rfl
  | cons r rs ih =>
    obtain ⟨hr, hrs⟩ := List.pairwise_cons.mp h
    unfold newRows
    split
    · rename_i hany
      rw [ih hrs, List.filter_cons_of_neg (by simp [hany])]
    · rename_i hany
      rw [ih hrs, List.filter_cons_of_pos (by simpa using hany)]
      congr 1
      refine List.filter_congr fun x hx => ?_
      have hxr : clash x r = false := by rw [hsymm]; exact hr x hx
      simp [hxr]

/-- A statement inserts all its rows iff they clash neither with the table nor with one
another. -/
theorem newRows_length_eq_iff (table rows : List ρ) :
    (newRows clash table rows).length = rows.length ↔ newRows clash table rows = rows :=
  ⟨fun h => (newRows_sublist table rows).eq_of_length h, fun h => by rw [h]⟩

/-- Rows that all clash with the table are not inserted. -/
theorem newRows_eq_nil (h : ∀ r ∈ rows, ∃ s ∈ table, clash r s = true) :
    newRows clash table rows = [] := by
  induction rows with
  | nil => rfl
  | cons r rs ih =>
    unfold newRows
    rw [if_pos (List.any_eq_true.mpr (h r List.mem_cons_self))]
    exact ih fun x hx => h x (List.mem_cons_of_mem r hx)

/-! ## A single unique key -/

section Key

variable {κ : Type*} [DecidableEq κ] (key : ρ → κ)

/-- Two rows with the same key clash. -/
def sameKey (a b : ρ) : Bool := decide (key a = key b)

theorem sameKey_symm (a b : ρ) : sameKey key a b = sameKey key b a := by
  simp only [sameKey, eq_comm]

theorem pairwise_sameKey_iff {l : List ρ} :
    l.Pairwise (fun a b => sameKey key a b = false) ↔ (l.map key).Nodup := by
  rw [List.Nodup, List.pairwise_map]
  simp only [sameKey, decide_eq_false_iff_not, ne_eq]

variable {key}

theorem nodup_insertIgnore (h : (table.map key).Nodup) :
    ((insertIgnore (sameKey key) table rows).map key).Nodup :=
  (pairwise_sameKey_iff key).mp
    (pairwise_insertIgnore (sameKey_symm key) ((pairwise_sameKey_iff key).mpr h))

/-- The keys of the new table are the old keys and those of the statement. -/
theorem insertIgnore_key {k : κ} :
    k ∈ (insertIgnore (sameKey key) table rows).map key ↔ k ∈ table.map key ∨ k ∈ rows.map key := by
  constructor
  · intro h
    obtain ⟨r, hr, rfl⟩ := List.mem_map.mp h
    rcases List.mem_append.mp hr with hr | hr
    · exact Or.inl (List.mem_map_of_mem hr)
    · exact Or.inr (List.mem_map_of_mem (mem_rows_of_mem_newRows hr))
  · rintro (h | h)
    · rw [insertIgnore, List.map_append]
      exact List.mem_append_left _ h
    · obtain ⟨r, hr, rfl⟩ := List.mem_map.mp h
      obtain ⟨s, hs, hc⟩ := @insertIgnore_covers ρ (sameKey key) table rows
        (fun a => by simp [sameKey]) r hr
      have hk : key r = key s := by simpa [sameKey] using hc
      exact hk ▸ List.mem_map_of_mem hs

/-- Rows with distinct keys: exactly those with a key the table does not have are inserted. -/
theorem newRows_key_eq_filter (h : (rows.map key).Nodup) :
    newRows (sameKey key) table rows = rows.filter fun r => decide (key r ∉ table.map key) := by
  rw [newRows_eq_filter (sameKey_symm key) ((pairwise_sameKey_iff key).mpr h)]
  refine List.filter_congr fun r _ => ?_
  rw [Bool.eq_iff_iff]
  simp only [sameKey, Bool.not_eq_true', List.any_eq_false, decide_eq_true_eq, List.mem_map,
    not_exists, not_and]
  exact ⟨fun hr s hs he => hr s hs he.symm, fun hr s hs he => hr s hs he.symm⟩

/-- Keeping the first row of each key commutes with a filter on the key. -/
theorem filter_newRows_key (p : κ → Bool) (table rows : List ρ) :
    (newRows (sameKey key) table rows).filter (fun r => p (key r)) =
      newRows (sameKey key) (table.filter fun r => p (key r))
        (rows.filter fun r => p (key r)) := by
  induction rows generalizing table with
  | nil => rfl
  | cons r rs ih =>
    by_cases hp : p (key r) = true
    · have hany : (table.filter fun x => p (key x)).any (sameKey key r) =
          table.any (sameKey key r) := by
        rw [Bool.eq_iff_iff, List.any_eq_true, List.any_eq_true]
        constructor
        · rintro ⟨x, hx, hc⟩
          exact ⟨x, (List.mem_filter.mp hx).1, hc⟩
        · rintro ⟨x, hx, hc⟩
          have hk : key r = key x := by simpa [sameKey] using hc
          exact ⟨x, List.mem_filter.mpr ⟨hx, by rwa [← hk]⟩, hc⟩
      rw [List.filter_cons_of_pos (by simpa using hp), newRows, newRows, hany]
      split
      · exact ih table
      · rw [List.filter_cons_of_pos (by simpa using hp), ih (table ++ [r]), List.filter_append,
          List.filter_cons_of_pos (by simpa using hp), List.filter_nil]
    · rw [List.filter_cons_of_neg (by simpa using hp), newRows]
      split
      · exact ih table
      · rw [List.filter_cons_of_neg (by simpa using hp), ih (table ++ [r]), List.filter_append,
          List.filter_cons_of_neg (by simpa using hp), List.filter_nil,
          List.append_nil]

end Key

/-! ## Tables -/

/-- The unique keys of a table, as the relation of clashing on one of them. -/
structure Keys (ρ : Type*) where
  clash : ρ → ρ → Bool
  refl : ∀ a, clash a a = true
  symm : ∀ a b, clash a b = clash b a

/-- A single unique key. -/
def Keys.on {κ : Type*} [DecidableEq κ] (key : ρ → κ) : Keys ρ where
  clash := sameKey key
  refl a := by simp [sameKey]
  symm := sameKey_symm key

/-- A rewrite that keeps the key keeps the clashes. -/
theorem Keys.on_congr {κ : Type*} [DecidableEq κ] {key : ρ → κ} {f : ρ → ρ}
    (h : ∀ r, key (f r) = key r) (a b : ρ) :
    (Keys.on key).clash (f a) b = (Keys.on key).clash a b := by
  simp only [Keys.on, sameKey, h]

/-- Two unique keys; a row clashes when it repeats either. -/
def Keys.or (k l : Keys ρ) : Keys ρ where
  clash a b := k.clash a b || l.clash a b
  refl a := by rw [k.refl]; rfl
  symm a b := by rw [k.symm, l.symm]

/-- Rows in insertion order, no two of which clash. -/
structure Table (k : Keys ρ) where
  rows : List ρ
  unique : rows.Pairwise fun a b => k.clash a b = false

namespace Table

variable {k : Keys ρ}

/-- The table with no rows. -/
def empty : Table k := ⟨[], List.Pairwise.nil⟩

/-- `INSERT IGNORE`: the number of inserted rows and the new table. -/
def insertIgnore (t : Table k) (rows : List ρ) : ℕ × Table k :=
  ((newRows k.clash t.rows rows).length,
    ⟨Lib.insertIgnore k.clash t.rows rows, pairwise_insertIgnore k.symm t.unique⟩)

/-- `UPDATE … SET f WHERE sel`: the number of matched rows and the new table. `f` touches no
unique column. -/
def update (t : Table k) (sel : ρ → Bool) (f : ρ → ρ)
    (hf : ∀ a b, k.clash (f a) b = k.clash a b) : ℕ × Table k :=
  ((t.rows.filter sel).length,
    ⟨t.rows.map fun r => if sel r then f r else r, by
      rw [List.pairwise_map]
      refine t.unique.imp fun {a b} h => ?_
      split <;> split <;> simp only [hf, k.symm _ (f b), k.symm b a, h]⟩)

/-- `INSERT` of one row; it fails where the row clashes. -/
def insert (t : Table k) (r : ρ) : Option (Table k) :=
  if h : ∀ s ∈ t.rows, k.clash s r = false then
    some ⟨t.rows ++ [r], List.pairwise_append.mpr
      ⟨t.unique, List.pairwise_singleton _ r, fun s hs r' hr' => by
        rw [List.mem_singleton.mp hr']
        exact h s hs⟩⟩
  else none

@[simp] theorem rows_empty : (empty : Table k).rows = [] := rfl

theorem insert_eq_some {t t' : Table k} {r : ρ} (h : t.insert r = some t') :
    t'.rows = t.rows ++ [r] ∧ ∀ s ∈ t.rows, k.clash s r = false := by
  unfold insert at h
  split at h
  · rename_i hclash
    cases h
    exact ⟨rfl, hclash⟩
  · cases h

/-- Two rows that clash are the same row. -/
theorem eq_of_clash (t : Table k) {a b : ρ} (ha : a ∈ t.rows) (hb : b ∈ t.rows)
    (h : k.clash a b = true) : a = b := by
  by_contra hne
  have : Std.Symm fun a b => k.clash a b = false := ⟨fun x y hxy => by rwa [k.symm]⟩
  exact absurd h (by rw [t.unique.forall ha hb hne]; simp)

theorem mem_insertIgnore {t : Table k} {rows : List ρ} {r : ρ} :
    r ∈ (t.insertIgnore rows).2.rows ↔ r ∈ t.rows ∨ r ∈ newRows k.clash t.rows rows :=
  List.mem_append

variable {t : Table k} {sel : ρ → Bool} {f : ρ → ρ} {hf : ∀ a b, k.clash (f a) b = k.clash a b}

theorem rows_update :
    (t.update sel f hf).2.rows = t.rows.map fun r => if sel r then f r else r := rfl

/-- A row of the updated table is an old row, rewritten iff it was selected. -/
theorem mem_update {r : ρ} :
    r ∈ (t.update sel f hf).2.rows ↔ ∃ s ∈ t.rows, (if sel s then f s else s) = r := by
  rw [rows_update, List.mem_map]

end Table

theorem Table.nodup_key {κ : Type*} [DecidableEq κ] {key : ρ → κ} (t : Table (Keys.on key)) :
    (t.rows.map key).Nodup :=
  (pairwise_sameKey_iff key).mp t.unique

end Hmdp.Lib
