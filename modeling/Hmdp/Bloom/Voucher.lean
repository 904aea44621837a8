import Hmdp.Lib.FailOpen
import Hmdp.Lib.Machine
import Hmdp.Model.BloomFilter

/-!
# The seckill voucher Bloom filter and its flag

Runs of `initialize`, `put` and `mightContain` on one `SeckillVoucherBloomFilter`, in any order,
where any call of Redisson may throw.

* `put` raises the flag when its own id is in, whatever became of the ids before it
  (`neverRejects_fails`). The twin `ShopBloomFilter.put` restores the flag it found.
* `neverRejects_iff`: no id is rejected iff no call raises the flag while an earlier id is missing.
-/

namespace Hmdp.VoucherBloom

open Hmdp.Lib Hmdp.Model

/-- A call of the filter, with the replies of Redisson it meets. -/
inductive Call where
  | initializeIds (tryInit : Reply) (adds : List Reply) (voucherIds : Option (List (Option Long)))
  | put (tryInit add : Reply) (voucherId : Option Long)
  | mightContain (contains : Option Bool) (voucherId : Option Long)

/-- The ids a call passes to the filter. -/
def Call.ids : Call → List Long
  | .initializeIds _ _ voucherIds => nonNull voucherIds
  | .put _ _ voucherId => voucherId.toList
  | .mightContain _ _ => []

/-- One JVM's filter with what it has been told. -/
structure State where
  filter : SeckillVoucherBloomFilter
  /-- ghost: the ids passed to an `initialize` or a `put` so far -/
  passed : List Long
  deriving DecidableEq

/-- The filter after a call. -/
def Call.exec (f : SeckillVoucherBloomFilter) : Call → SeckillVoucherBloomFilter
  | .initializeIds tryInit adds voucherIds => f.initializeIds tryInit adds voucherIds
  | .put tryInit add voucherId => f.put tryInit add voucherId
  | .mightContain contains voucherId => (f.mightContain contains voucherId).2

/-- One call. -/
def step (s : State) (c : Call) : Option State :=
  some ⟨c.exec s.filter, c.ids ++ s.passed⟩

/-- A new instance; the filter in Redis may hold ids already. -/
def State.start (added : List Long) : State := ⟨⟨added, false⟩, []⟩

/-- `mightContain` returns true for every id passed before, whatever Redisson replies. -/
def State.NeverRejects (s : State) : Prop :=
  ∀ contains, ∀ id ∈ s.passed, (s.filter.mightContain contains (some id)).1 = true

/-- The state as a gate with one keeper. -/
def State.gate (s : State) : Gate Unit Long where
  known := { id | id ∈ s.passed }
  held := { id | id ∈ s.filter.added }
  strict := fun _ => s.filter.ready = true

/-- A call none of whose calls of Redisson throws finds every id passed before in the filter, or
adds it. -/
def Complete (s : State) : Call → Prop
  | .initializeIds tryInit adds voucherIds =>
    (tryInit = .returns ∧ ∀ r ∈ adds.take (nonNull voucherIds).length, r = .returns) →
      ∀ id ∈ s.passed, id ∈ s.filter.added ∨ id ∈ nonNull voucherIds
  | .put tryInit add (some voucherId) =>
    ((s.filter.ready = true ∨ tryInit = .returns) ∧ add = .returns) →
      ∀ id ∈ s.passed, id ∈ s.filter.added ∨ id = voucherId
  | .put _ _ none => True
  | .mightContain _ _ => True

/-! ## What one answer can show -/

theorem mightContain_admits (f : SeckillVoucherBloomFilter) (known : Set Long) (id : Long)
    (contains : Option Bool) :
    Gate.Admits ⟨known, { id | id ∈ f.added }, fun _ : Unit => f.ready = true⟩ () id
      ((f.mightContain contains (some id)).1 = true) := by
  unfold SeckillVoucherBloomFilter.mightContain
  constructor
  · intro hready
    simp only [Bool.not_eq_true] at hready
    simp [hready]
  · intro hid
    have hmem : id ∈ f.added := hid
    cases hready : f.ready with
    | false => simp
    | true =>
      cases contains with
      | none => simp
      | some falsePositive => simp [hmem]

theorem neverRejects_iff_sound (s : State) : s.NeverRejects ↔ s.gate.Sound := by
  constructor
  · intro h i hready id hid
    have hyes := h (some false) id hid
    have hready : s.filter.ready = true := hready
    simp only [SeckillVoucherBloomFilter.mightContain, hready, Bool.not_true, Bool.or_false,
      Bool.false_eq_true, if_false] at hyes
    have hmem : id ∈ s.filter.added := of_decide_eq_true hyes
    exact hmem
  · intro h contains id hid
    exact Gate.sound_iff_admits.mp h () id hid _ (mightContain_admits s.filter _ id contains)

/-! ## Steps -/

theorem sound_of_not_ready {s : State} (h : s.filter.ready = false) : s.gate.Sound :=
  Gate.sound_of_open fun _ hready => absurd (h.symm.trans hready) (by simp)

theorem sound_initializeIds {s : State} {tryInit : Reply} {adds : List Reply}
    {voucherIds : Option (List (Option Long))} :
    (State.gate ⟨s.filter.initializeIds tryInit adds voucherIds,
      nonNull voucherIds ++ s.passed⟩).Sound ↔
        Complete s (.initializeIds tryInit adds voucherIds) := by
  unfold SeckillVoucherBloomFilter.initializeIds Complete
  cases tryInit with
  | throws applied =>
    refine ⟨fun _ h => ?_, fun _ => sound_of_not_ready rfl⟩
    cases h.1
  | returns =>
    have hreturns := addAll_returns (nonNull voucherIds) adds s.filter.added
    cases hcompleted : (addAll (nonNull voucherIds) adds s.filter.added).2 with
    | false =>
      rw [hcompleted] at hreturns
      constructor
      · exact fun _ h => absurd (hreturns.mpr h.2) (by simp)
      · exact fun _ => sound_of_not_ready hcompleted
    | true =>
      have hadded : ∀ id, id ∈ (addAll (nonNull voucherIds) adds s.filter.added).1 ↔ _ :=
        fun id => addAll_completed hcompleted
      constructor
      · intro h _ id hid
        have hin := h () hcompleted (List.mem_append_right _ hid)
        exact ((hadded id).mp hin).symm
      · intro h _ _ id hid
        refine (hadded id).mpr ?_
        rcases List.mem_append.mp hid with hnew | hold
        · exact .inl hnew
        · exact (h ⟨rfl, hreturns.mp hcompleted⟩ id hold).symm

theorem sound_put {s : State} (h : s.gate.Sound) {tryInit add : Reply} {voucherId : Option Long} :
    (State.gate ⟨s.filter.put tryInit add voucherId, voucherId.toList ++ s.passed⟩).Sound ↔
      Complete s (.put tryInit add voucherId) := by
  cases voucherId with
  | none => exact ⟨fun _ => trivial, fun _ => h⟩
  | some voucherId =>
    simp only [SeckillVoucherBloomFilter.put, SeckillVoucherBloomFilter.ensureInitialized, Complete]
    by_cases hinit : s.filter.ready = true ∨ tryInit = .returns
    · have hensured : (if s.filter.ready = true then Reply.returns else tryInit) = .returns := by
        rcases hinit with hready | htry
        · rw [if_pos hready]
        · rw [htry, ite_self]
      simp only [hensured, Option.toList_some, List.singleton_append]
      cases add with
      | throws applied =>
        refine ⟨fun _ h => ?_, fun _ => sound_of_not_ready rfl⟩
        cases h.2
      | returns =>
        constructor
        · intro h _ id hid
          exact (List.mem_cons.mp (h () rfl (List.mem_cons_of_mem _ hid))).symm
        · intro h _ _ id hid
          rcases List.mem_cons.mp hid with rfl | hold
          · exact List.mem_cons_self
          · exact List.mem_cons.mpr (h ⟨hinit, rfl⟩ id hold).symm
    · obtain ⟨hready, htry⟩ := not_or.mp hinit
      cases tryInit with
      | returns => exact absurd rfl htry
      | throws applied =>
        simp only [if_neg hready]
        exact ⟨fun _ h => absurd h.1 hinit, fun _ => sound_of_not_ready rfl⟩

theorem sound_mightContain {s : State} (h : s.gate.Sound) (contains : Option Bool)
    (voucherId : Option Long) :
    (State.gate ⟨(s.filter.mightContain contains voucherId).2, s.passed⟩).Sound := by
  unfold SeckillVoucherBloomFilter.mightContain
  split
  · exact h
  split
  · exact h
  split
  · exact sound_of_not_ready rfl
  · exact h

/-- A call keeps the filter sound exactly if it is complete. -/
theorem sound_step {s t : State} {c : Call} (h : s.gate.Sound) (hstep : step s c = some t) :
    t.gate.Sound ↔ Complete s c := by
  cases hstep
  cases c with
  | initializeIds tryInit adds voucherIds => exact sound_initializeIds
  | put tryInit add voucherId => exact sound_put h
  | mightContain contains voucherId =>
    exact ⟨fun _ => trivial, fun _ => sound_mightContain h contains voucherId⟩

theorem run_step (s : State) (as : List Call) : ∃ t, run step s as = some t := by
  induction as generalizing s with
  | nil => exact ⟨s, rfl⟩
  | cons c as ih =>
    obtain ⟨t, ht⟩ := ih ⟨c.exec s.filter, c.ids ++ s.passed⟩
    exact ⟨t, run_cons.mpr ⟨_, rfl, ht⟩⟩

/-- **No valid voucher is rejected iff no call raises the flag over a missing id.** All along a run
`mightContain` returns true for every id passed before, exactly if every call that succeeds finds
the ids passed before it in the filter or adds them. -/
theorem neverRejects_iff (added : List Long) (as : List Call) :
    (∀ bs s, bs <+: as → run step (.start added) bs = some s → s.NeverRejects) ↔
      Along step Complete (.start added) as := by
  have hstart : (State.start added).gate.Sound := sound_of_not_ready rfl
  obtain ⟨t, ht⟩ := run_step (.start added) as
  rw [along_iff_invariant (J := fun _ => True) (fun _ _ _ _ _ _ => trivial)
    (fun _ _ _ _ hs hstep => sound_step hs hstep) trivial hstart ht]
  exact forall₄_congr fun bs s _ _ => neverRejects_iff_sound s

/-- The second `add` of an `initialize` throws, and a later `put` succeeds: the second id is
rejected. -/
theorem neverRejects_fails :
    ¬∀ (added : List Long) (as : List Call) (s : State),
      run step (.start added) as = some s → s.NeverRejects := by
  intro h
  have hrejects := h [] [.initializeIds .returns [.returns, .throws false] (some [some 1, some 2]),
    .put .returns .returns (some 3)] ⟨⟨[3, 1], true⟩, [3, 1, 2]⟩ (by decide) (some false) 2
    (by decide)
  exact absurd hrejects (by decide)

end Hmdp.VoucherBloom
