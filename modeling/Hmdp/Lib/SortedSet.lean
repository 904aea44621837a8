import Mathlib.Data.Prod.Lex
import Mathlib.Data.List.Sort
import Mathlib.Data.List.Lex

/-!
# Sorted sets

A Redis sorted set: distinct members, each with a score, kept in the order of score and then
member. The order and the distinctness are part of the type, so a range read needs no sorting
and every operation is checked once to keep them.
-/

namespace Hmdp.Lib

variable {α : Type*} [LinearOrder α]

/-- A sorted set: the entries in ascending order of (score, member), each member once. -/
structure ZSet (α : Type*) [LinearOrder α] where
  entries : List (ℤ ×ₗ α)
  sorted : entries.Pairwise (· ≤ ·)
  distinct : (entries.map fun e => (ofLex e).2).Nodup

namespace ZSet

/-- The members in rank order. -/
def members (z : ZSet α) : List α := z.entries.map fun e => (ofLex e).2

/-- The key does not exist. -/
def empty : ZSet α := ⟨[], List.Pairwise.nil, List.nodup_nil⟩

/-- `ZREM` of every member that `p` selects. -/
def remove (z : ZSet α) (p : α → Bool) : ZSet α where
  entries := z.entries.filter fun e => !p (ofLex e).2
  sorted := z.sorted.filter _
  distinct := (List.filter_sublist.map _).nodup z.distinct

/-- `ZADD score member`: a member that is present gets the new score. -/
def zadd (z : ZSet α) (score : ℤ) (m : α) : ZSet α where
  entries := (z.remove (fun x => decide (x = m))).entries.orderedInsert (· ≤ ·) (toLex (score, m))
  sorted := List.Pairwise.orderedInsert _ _ (z.remove _).sorted
  distinct := by
    have hp := (List.perm_orderedInsert (· ≤ ·) (toLex (score, m))
      (z.remove (fun x => decide (x = m))).entries).map fun e => (ofLex e).2
    refine hp.nodup_iff.mpr (List.nodup_cons.mpr ⟨fun h => ?_, (z.remove _).distinct⟩)
    obtain ⟨e, he, hm⟩ := List.mem_map.mp h
    have := (List.mem_filter.mp he).2
    simp [hm] at this

/-- `ZREM` of the listed members; the reply is how many of them were present. -/
def zrem (z : ZSet α) (ms : List α) : ℕ × ZSet α :=
  ((z.members.filter fun x => decide (x ∈ ms)).length, z.remove fun x => decide (x ∈ ms))

/-- `ZRANGE 0 (limit - 1)`: the first `limit` members. -/
def range (z : ZSet α) (limit : ℕ) : List α := z.members.take limit

/-- `ZREVRANGEBYSCORE max min LIMIT offset count`, with the scores. -/
def revRangeByScore (z : ZSet α) (min max : ℤ) (offset count : ℕ) : List (ℤ × α) :=
  (((z.entries.reverse.map fun e => ofLex e).filter
    fun e => decide (min ≤ e.1 ∧ e.1 ≤ max)).drop offset).take count

/-- The entries from the highest rank down, as `ZREVRANGE 0 -1 WITHSCORES` lists them. -/
def reversed (z : ZSet α) : List (ℤ × α) := z.entries.reverse.map fun e => ofLex e

/-- `ZREVRANGE 0 (count - 1) WITHSCORES`. -/
def revRange (z : ZSet α) (count : ℕ) : List (ℤ × α) := z.reversed.take count

/-- `ZSCORE`; `none` for no such member. -/
def score (z : ZSet α) (m : α) : Option ℤ :=
  (z.entries.find? fun e => decide ((ofLex e).2 = m)).map fun e => (ofLex e).1

/-- `ZINCRBY`; a missing member counts as 0. -/
def zincrby (z : ZSet α) (increment : ℤ) (m : α) : ZSet α :=
  z.zadd ((z.score m).getD 0 + increment) m

theorem members_nodup (z : ZSet α) : z.members.Nodup := z.distinct

theorem members_remove (z : ZSet α) (p : α → Bool) :
    (z.remove p).members = z.members.filter fun x => !p x := by
  simp only [members, remove, List.filter_map]
  rfl

/-- A sorted set is its entries. -/
theorem ext_entries {z w : ZSet α} (h : z.entries = w.entries) : z = w := by
  cases z
  cases w
  cases h
  rfl

theorem remove_remove (z : ZSet α) (p q : α → Bool) :
    (z.remove p).remove q = z.remove fun x => p x || q x := by
  refine ext_entries ?_
  simp only [remove, List.filter_filter, Bool.not_or, Bool.and_comm]

/-- Removing members one list after the other. -/
theorem zrem_zrem (z : ZSet α) (ms ms' : List α) :
    ((z.zrem ms).2.zrem ms').2 = (z.zrem (ms ++ ms')).2 := by
  simp only [zrem, remove_remove, List.mem_append, Bool.decide_or]

/-- Only which members are listed matters. -/
theorem zrem_congr (z : ZSet α) {ms ms' : List α} (h : ∀ x, x ∈ ms ↔ x ∈ ms') :
    (z.zrem ms).2 = (z.zrem ms').2 := by
  simp only [zrem, h]

theorem zrem_nil (z : ZSet α) : (z.zrem []).2 = z :=
  ext_entries (by simp [zrem, remove])

/-- Members that are not there. -/
theorem zrem_eq_self (z : ZSet α) {ms : List α} (h : ∀ x ∈ ms, x ∉ z.members) :
    (z.zrem ms).2 = z := by
  refine ext_entries (List.filter_eq_self.mpr fun e he => ?_)
  have hout : (ofLex e).2 ∉ ms := fun hm => h _ hm (List.mem_map.mpr ⟨e, he, rfl⟩)
  simpa using hout

@[simp] theorem mem_zrem {z : ZSet α} {ms : List α} {x : α} :
    x ∈ (z.zrem ms).2.members ↔ x ∈ z.members ∧ x ∉ ms := by
  rw [zrem, members_remove, List.mem_filter]
  simp

@[simp] theorem mem_zadd {z : ZSet α} {score : ℤ} {m x : α} :
    x ∈ (z.zadd score m).members ↔ x = m ∨ x ∈ z.members := by
  have hp := (List.perm_orderedInsert (· ≤ ·) (toLex (score, m))
    (z.remove (fun x => decide (x = m))).entries).map fun e => (ofLex e).2
  have hm : (z.zadd score m).members.Perm (m :: (z.remove (fun x => decide (x = m))).members) := hp
  rw [hm.mem_iff, List.mem_cons, members_remove, List.mem_filter]
  by_cases hx : x = m
  · simp [hx]
  · simp [hx]

theorem length_zadd {z : ZSet α} {m : α} (h : m ∉ z.members) (score : ℤ) :
    (z.zadd score m).members.length = z.members.length + 1 := by
  have hp := (List.perm_orderedInsert (· ≤ ·) (toLex (score, m))
    (z.remove (fun x => decide (x = m))).entries).map fun e => (ofLex e).2
  have hm : (z.zadd score m).members.Perm (m :: (z.remove (fun x => decide (x = m))).members) := hp
  have hall : (z.remove (fun x => decide (x = m))).members = z.members := by
    rw [members_remove]
    refine List.filter_eq_self.mpr fun x hx => ?_
    have hne : x ≠ m := fun he => h (he ▸ hx)
    simpa using hne
  rw [hm.length_eq, List.length_cons, hall]

theorem length_zrem {z : ZSet α} {m : α} (h : m ∈ z.members) :
    (z.zrem [m]).2.members.length + 1 = z.members.length := by
  have herase : (z.zrem [m]).2.members = z.members.erase m := by
    rw [zrem, members_remove, z.members_nodup.erase_eq_filter]
    exact List.filter_congr fun x _ => by simp [bne, beq_eq_decide]
  rw [herase, List.length_erase_of_mem h]
  have := List.length_pos_of_mem h
  omega

/-- Without the members of the lowest ranks. -/
theorem entries_zrem_range (z : ZSet α) (n : ℕ) :
    (z.zrem (z.range n)).2.entries = z.entries.drop n := by
  have hlow : ∀ e ∈ z.entries.take n, (ofLex e).2 ∈ z.range n := by
    intro e he
    rw [range, members, ← List.map_take]
    exact List.mem_map_of_mem he
  have hhigh : ∀ e ∈ z.entries.drop n, (ofLex e).2 ∉ z.range n := by
    intro e he hlow
    have hnodup := z.members_nodup
    rw [← List.take_append_drop n z.members, List.nodup_append'] at hnodup
    refine hnodup.2.2 hlow ?_
    rw [members, ← List.map_drop]
    exact List.mem_map_of_mem he
  calc (z.zrem (z.range n)).2.entries
      = (z.entries.take n ++ z.entries.drop n).filter
          fun e => !decide ((ofLex e).2 ∈ z.range n) := by
        rw [List.take_append_drop]
        rfl
    _ = z.entries.drop n := by
        rw [List.filter_append, List.filter_eq_nil_iff.mpr fun e he => by simpa using hlow e he,
          List.filter_eq_self.mpr fun e he => by simpa using hhigh e he, List.nil_append]

theorem mem_of_mem_range {z : ZSet α} {limit : ℕ} {x : α} (h : x ∈ z.range limit) :
    x ∈ z.members :=
  List.mem_of_mem_take h

/-! ## The highest -/

/-- The entries are in ascending order, without equal ones. -/
theorem strict (z : ZSet α) : z.entries.Pairwise (· < ·) :=
  (z.sorted.and (List.Nodup.of_map _ z.distinct)).imp fun h => lt_of_le_of_ne h.1 h.2

/-- The removed count is zero iff no listed member was present. -/
theorem zrem_eq_zero {z : ZSet α} {ms : List α} :
    (z.zrem ms).1 = 0 ↔ ∀ x ∈ ms, x ∉ z.members := by
  rw [zrem, List.length_eq_zero_iff, List.filter_eq_nil_iff]
  simp only [decide_eq_true_eq]
  exact ⟨fun h x hx hz => h x hz hx, fun h x hz hx => h x hx hz⟩

/-! ## Scores -/

theorem score_eq_some {z : ZSet α} {m : α} {x : ℤ} :
    z.score m = some x ↔ toLex (x, m) ∈ z.entries := by
  constructor
  · intro h
    obtain ⟨e, he, hx⟩ := Option.map_eq_some_iff.mp h
    have hm : (ofLex e).2 = m := by simpa using List.find?_some he
    have hpair : e = toLex (x, m) := by
      rw [← hx, ← hm]
      rfl
    exact hpair ▸ List.mem_of_find?_eq_some he
  · intro h
    cases hfind : z.entries.find? fun e => decide ((ofLex e).2 = m) with
    | none => simpa using List.find?_eq_none.mp hfind _ h
    | some e =>
      have hm : (ofLex e).2 = m := by simpa using List.find?_some hfind
      -- a member has one entry
      have heq : e = toLex (x, m) :=
        List.inj_on_of_nodup_map z.distinct (List.mem_of_find?_eq_some hfind) h hm
      rw [score, hfind, Option.map_some, heq]
      rfl

theorem score_congr {z w : ZSet α} {m : α}
    (h : ∀ x, toLex (x, m) ∈ z.entries ↔ toLex (x, m) ∈ w.entries) : z.score m = w.score m := by
  refine Option.ext fun x => ?_
  rw [score_eq_some, score_eq_some, h]

theorem mem_entries_remove {z : ZSet α} {p : α → Bool} {e : ℤ ×ₗ α} :
    e ∈ (z.remove p).entries ↔ e ∈ z.entries ∧ p (ofLex e).2 = false := by
  rw [remove, List.mem_filter, Bool.not_eq_true']

theorem mem_entries_zadd {z : ZSet α} {x : ℤ} {m : α} {e : ℤ ×ₗ α} :
    e ∈ (z.zadd x m).entries ↔ e = toLex (x, m) ∨ e ∈ z.entries ∧ (ofLex e).2 ≠ m := by
  rw [zadd, List.mem_orderedInsert, mem_entries_remove, decide_eq_false_iff_not]

theorem score_zadd (z : ZSet α) (x : ℤ) (m m' : α) :
    (z.zadd x m).score m' = if m' = m then some x else z.score m' := by
  split
  · rename_i h
    rw [score_eq_some, mem_entries_zadd, h]
    exact Or.inl rfl
  · rename_i h
    refine score_congr fun y => ?_
    rw [mem_entries_zadd]
    refine ⟨fun hmem => hmem.elim (fun heq => ?_) And.left, fun hmem => Or.inr ⟨hmem, h⟩⟩
    exact absurd (congrArg Prod.snd (toLex.injective heq)) h

theorem score_zincrby (z : ZSet α) (increment : ℤ) (m m' : α) :
    (z.zincrby increment m).score m' =
      if m' = m then some ((z.score m).getD 0 + increment) else z.score m' :=
  score_zadd z _ m m'

theorem score_zrem (z : ZSet α) (ms : List α) (m : α) :
    (z.zrem ms).2.score m = if m ∈ ms then none else z.score m := by
  split
  · rename_i h
    refine Option.eq_none_iff_forall_ne_some.mpr fun x hx => ?_
    exact absurd h (of_decide_eq_false (mem_entries_remove.mp (score_eq_some.mp hx)).2)
  · rename_i h
    refine score_congr fun x => ?_
    rw [zrem, mem_entries_remove]
    exact ⟨And.left, fun hmem => ⟨hmem, decide_eq_false h⟩⟩

@[simp] theorem score_empty (m : α) : (empty : ZSet α).score m = none := rfl

end ZSet

end Hmdp.Lib
