import Hmdp.Model.IdSegment
import Mathlib.Data.Int.Order.Basic
import Mathlib.Data.List.Nodup

/-!
# Are the order ids of all instances distinct?

Every range belongs to the instance that allocated it, and the ranges of all instances are
disjoint, because the row lock makes `max_id` the end of all of them. A thread that has drawn an
id holds it alone: the counter of the range has moved past it. So what `nextId` returns is
unique, as long as the counters only move up. They do not at the end of the `long`s:
`IdSegmentAllocator` hands out ranges up to `Long.MAX_VALUE`, the callers of a spent range keep
incrementing its counter, and from `Long.MAX_VALUE` it wraps to `Long.MIN_VALUE`, which `refill`
takes for a range that has ids left (`wrapped_id_is_returned`).

* `unique_set`: a step that draws and returns nothing keeps the invariant.
* `unique_draw`, `unique_return`: the two steps that do.
* **`ids_unique`**: in every run in which no id is taken from a counter that has wrapped, all
  returned ids are distinct, and each lies in a range its instance has allocated.
-/

namespace Hmdp.IdSegment

open Hmdp.Lib Hmdp.Model

variable {cfg : ℕ → GeneratorConfig} {w w' w₁ : World} {i j r t : ℕ} {id : Long}
  {x : Instance}

/-! ## What is claimed of a state -/

/-- All returned ids are distinct, and each lies in a range allocated to its instance. -/
structure IdsUnique (w : World) : Prop where
  nodup : (w.returned.map Issued.id).Nodup
  inRange : ∀ x ∈ w.returned, ∃ range ∈ w.ranges, range.owner = x.owner ∧
    range.startInclusive ≤ x.id ∧ x.id < range.endExclusive

instance (w : World) : Decidable (IdsUnique w) :=
  decidable_of_iff ((w.returned.map Issued.id).Nodup ∧
      ∀ x ∈ w.returned, ∃ range ∈ w.ranges, range.owner = x.owner ∧
        range.startInclusive ≤ x.id ∧ x.id < range.endExclusive)
    ⟨fun h => ⟨h.1, h.2⟩, fun h => ⟨h.nodup, h.inRange⟩⟩

/-- The range a thread is about to take an id from. -/
def rangeOf (w : World) (i t : ℕ) : Option LocalRange :=
  match (w.instances i).threads t with
  | .hasRange r => w.ranges[r]?
  | _ => none

/-- The step takes no id from a counter that has wrapped. -/
def noWrap (w : World) (a : GeneratorAction) : Bool :=
  match a with
  | .draw i t => (rangeOf w i t).all fun range => !range.wrapped
  | _ => true

/-! ## The invariant -/

/-- Range `r` belongs to instance `i`. -/
def Owns (w : World) (i r : ℕ) : Prop :=
  ∃ range : LocalRange, w.ranges[r]? = some range ∧ range.owner = i

/-- The counter has left the value behind. -/
def Past (range : LocalRange) (n : ℤ) : Prop := range.wrapped = true ∨ n < range.next.toInt

/-- Instance `i` has drawn `id` from its range `r`. -/
def Drawn (w : World) (i r : ℕ) (id : Long) : Prop :=
  ∃ range : LocalRange, w.ranges[r]? = some range ∧ range.owner = i ∧
    range.startInclusive.toInt ≤ id.toInt ∧ Past range id.toInt

/-- The ranges follow one another up to `max_id`, and a counter below its start has wrapped. -/
structure RangesOk (w : World) : Prop where
  ordered : w.ranges.Pairwise fun a b => a.endExclusive.toInt ≤ b.startInclusive.toInt
  below : ∀ range ∈ w.ranges, ∃ row, w.segment = some row ∧
    range.endExclusive.toInt ≤ row.maxId.toInt
  counter : ∀ range ∈ w.ranges, range.wrapped = true ∨
    range.startInclusive.toInt ≤ range.next.toInt

/-- The ranges instance `i` refers to are its own. -/
structure Refs (w : World) (i : ℕ) (x : Instance) : Prop where
  current : ∀ r, x.current = some r → Owns w i r
  next : ∀ r, x.next = some r → Owns w i r
  task : ∀ r, x.task = .allocated r → Owns w i r
  hasRange : ∀ t r, x.threads t = .hasRange r → Owns w i r

/-- **The invariant**: what has been drawn or returned lies in its own segment, and is drawn
once. -/
structure Unique (w : World) : Prop where
  ranges : RangesOk w
  refs : ∀ i, Refs w i (w.instances i)
  /-- What a thread has drawn is drawn from its instance's range and not yet returned. -/
  drew : ∀ i t r id, (w.instances i).threads t = .drew r id →
    Drawn w i r id ∧ ∀ y ∈ w.returned, ¬(y.range = r ∧ y.id = id)
  /-- No two threads have drawn the same. -/
  drewOnce : ∀ i t j u r id, (w.instances i).threads t = .drew r id →
    (w.instances j).threads u = .drew r id → i = j ∧ t = u
  returned : ∀ y ∈ w.returned, ∃ range : LocalRange, w.ranges[y.range]? = some range ∧
    range.owner = y.owner ∧ range.startInclusive.toInt ≤ y.id.toInt ∧
    Past range y.id.toInt ∧ y.id.toInt < range.endExclusive.toInt
  once : (w.returned.map fun y => (y.range, y.id)).Nodup

/-- Ranges are only added, and what a counter has left behind stays behind. -/
def Grows (w w' : World) : Prop :=
  ∀ (r : ℕ) (range : LocalRange), w.ranges[r]? = some range →
    ∃ range' : LocalRange, w'.ranges[r]? = some range' ∧ range'.owner = range.owner ∧
      range'.startInclusive = range.startInclusive ∧ range'.endExclusive = range.endExclusive ∧
      ∀ n, Past range n → Past range' n

theorem grows_of_eq (h : w'.ranges = w.ranges) : Grows w w' := fun r range hr =>
  ⟨range, by rw [h]; exact hr, rfl, rfl, rfl, fun _ hn => hn⟩

theorem Owns.mono (h : Owns w i r) (hg : Grows w w') : Owns w' i r := by
  obtain ⟨range, hr, ho⟩ := h
  obtain ⟨range', hr', ho', -, -, -⟩ := hg r range hr
  exact ⟨range', hr', ho'.trans ho⟩

theorem Drawn.mono (h : Drawn w i r id) (hg : Grows w w') : Drawn w' i r id := by
  obtain ⟨range, hr, ho, hs, hn⟩ := h
  obtain ⟨range', hr', ho', hs', -, hn'⟩ := hg r range hr
  exact ⟨range', hr', ho'.trans ho, by rw [hs']; exact hs, hn' _ hn⟩

theorem Refs.mono (h : Refs w i x) (hg : Grows w w') : Refs w' i x where
  current r hr := (h.current r hr).mono hg
  next r hr := (h.next r hr).mono hg
  task r hr := (h.task r hr).mono hg
  hasRange t r hr := (h.hasRange t r hr).mono hg

/-! ## Steps that draw and return nothing -/

/-- **A step that draws and returns nothing** and leaves every reference owned keeps the
invariant. -/
theorem unique_set (h : Unique w) (hranges : RangesOk w₁) (hg : Grows w w₁)
    (hi : w₁.instances = w.instances) (hret : w₁.returned = w.returned) (hx : Refs w₁ i x)
    (hdrew : ∀ t r id, x.threads t = .drew r id → (w.instances i).threads t = .drew r id) :
    Unique (w₁.set i x) := by
  have hold : ∀ j t r id, ((w₁.set i x).instances j).threads t = .drew r id →
      (w.instances j).threads t = .drew r id := by
    intro j t r id hj
    by_cases hij : j = i
    · subst hij
      exact hdrew t r id (by simpa [World.set] using hj)
    · rw [← hi]
      simpa [World.set, hij] using hj
  refine ⟨⟨hranges.ordered, hranges.below, hranges.counter⟩, fun j => ?_, fun j t r id hj => ?_,
    fun j t k u r id hj hk => ?_, ?_, ?_⟩
  · by_cases hij : j = i
    · subst hij
      have hj : (w₁.set j x).instances j = x := by simp [World.set]
      rw [hj]
      exact hx.mono (grows_of_eq rfl)
    · have hj : (w₁.set i x).instances j = w.instances j := by simp [World.set, hij, hi]
      rw [hj]
      exact ((h.refs j).mono hg).mono (grows_of_eq rfl)
  · obtain ⟨hd, hr⟩ := h.drew j t r id (hold j t r id hj)
    exact ⟨hd.mono hg, fun y hy => hr y (by rw [← hret]; exact hy)⟩
  · exact h.drewOnce j t k u r id (hold j t r id hj) (hold k u r id hk)
  · intro y hy
    obtain ⟨range, hr, ho, hs, hn, he⟩ := h.returned y (by rw [← hret]; exact hy)
    obtain ⟨range', hr', ho', hs', he', hn'⟩ := hg y.range range hr
    exact ⟨range', hr', ho'.trans ho, by rw [hs']; exact hs, hn' _ hn, by rw [he']; exact he⟩
  · show (w₁.returned.map _).Nodup
    rw [hret]
    exact h.once

/-- The same where the ranges do not change. -/
theorem unique_set_same (h : Unique w) (hx : Refs w i x)
    (hdrew : ∀ t r id, x.threads t = .drew r id → (w.instances i).threads t = .drew r id) :
    Unique (w.set i x) :=
  unique_set h h.ranges (grows_of_eq rfl) rfl rfl hx hdrew

/-- Moving a thread to a state that names no range. -/
theorem Refs.setThread (h : Refs w i x) {s : ThreadState}
    (hs : ∀ r, s = .hasRange r → Owns w i r) : Refs w i (x.setThread t s) where
  current := h.current
  next := h.next
  task := h.task
  hasRange u r hr := by
    by_cases hu : u = t
    · subst hu
      exact hs r (by simpa [Instance.setThread] using hr)
    · exact h.hasRange u r (by simpa [Instance.setThread, hu] using hr)

theorem drew_of_setThread {s : ThreadState} (hs : ∀ r id, s ≠ .drew r id) (u : ℕ)
    (h : (x.setThread t s).threads u = .drew r id) : x.threads u = .drew r id := by
  by_cases hu : u = t
  · subst hu
    exact absurd (by simpa [Instance.setThread] using h) (hs r id)
  · simpa [Instance.setThread, hu] using h

theorem prefetch_eq (x : Instance) (rejected : Bool) :
    (x.prefetch rejected).1.current = x.current ∧ (x.prefetch rejected).1.next = x.next ∧
      (x.prefetch rejected).1.threads = x.threads ∧
      ∀ r, (x.prefetch rejected).1.task = .allocated r → x.task = .allocated r := by
  unfold Instance.prefetch
  split
  · exact ⟨rfl, rfl, rfl, fun r hr => hr⟩
  · split
    · exact ⟨rfl, rfl, rfl, fun r hr => hr⟩
    · exact ⟨rfl, rfl, rfl, fun r hr => by simp at hr⟩

theorem Refs.prefetch (h : Refs w i x) (rejected : Bool) : Refs w i (x.prefetch rejected).1 := by
  obtain ⟨hc, hn, ht, hk⟩ := prefetch_eq x rejected
  exact ⟨fun r hr => h.current r (by rw [← hc]; exact hr),
    fun r hr => h.next r (by rw [← hn]; exact hr), fun r hr => h.task r (hk r hr),
    fun t r hr => h.hasRange t r (by rw [← ht]; exact hr)⟩

/-! ## Allocation -/

/-- **An allocated range starts at the old `max_id` and ends at the new one**, without
overflow. -/
theorem allocate_bounds {step : Int32} {segment : Option IdSegment} {bounds : Long × Long}
    {row : IdSegment} (h : allocate step segment = some (bounds, row)) :
    ∃ old, segment = some old ∧ bounds.1 = old.maxId ∧ bounds.2 = row.maxId ∧
      old.maxId.toInt < row.maxId.toInt := by
  unfold allocate at h
  split at h
  · exact absurd h (by simp)
  rename_i old
  simp only at h
  generalize (if 0 < step then step else old.step) = n at h
  split at h
  · exact absurd h (by simp)
  rename_i hn
  simp only [Option.some.injEq, Prod.mk.injEq] at h
  obtain ⟨hb, rfl⟩ := h
  have hpos : 0 < n.toInt64.toInt := by
    have : ¬n ≤ 0 := fun hle => hn (Or.inl hle)
    rw [Int32.le_iff_toInt_le, Int32.toInt_zero] at this
    rw [Int32.toInt_toInt64]
    omega
  have hfit : old.maxId.toInt ≤ 2 ^ 63 - 1 - n.toInt64.toInt := by
    have : ¬Int64.maxValue - n.toInt64 < old.maxId := fun hlt => hn (Or.inr hlt)
    rw [Int64.lt_iff_toInt_lt, Int64.toInt_sub, Int64.toInt_maxValue,
      Int.bmod_eq_of_le (by have := n.toInt64.toInt_lt; omega) (by omega)] at this
    omega
  refine ⟨old, rfl, by rw [← hb], by rw [← hb], ?_⟩
  show _ < (old.maxId + n.toInt64).toInt
  have hlow := old.maxId.le_toInt
  rw [Int64.toInt_add, Int.bmod_eq_of_le (by omega) (by omega)]
  omega

theorem allocateRange_spec (h : RangesOk w) {outcome : AllocationOutcome} {o : Option ℕ}
    (ha : allocateRange cfg i outcome w = (w₁, o)) :
    RangesOk w₁ ∧ Grows w w₁ ∧ w₁.instances = w.instances ∧ w₁.returned = w.returned ∧
      ∀ r, o = some r → Owns w₁ i r := by
  unfold allocateRange at ha
  cases outcome with
  | failed =>
    simp only [Prod.mk.injEq] at ha
    obtain ⟨rfl, rfl⟩ := ha
    exact ⟨h, grows_of_eq rfl, rfl, rfl, fun r hr => absurd hr (by simp)⟩
  | ok =>
    simp only at ha
    split at ha
    · simp only [Prod.mk.injEq] at ha
      obtain ⟨rfl, rfl⟩ := ha
      exact ⟨h, grows_of_eq rfl, rfl, rfl, fun r hr => absurd hr (by simp)⟩
    rename_i bounds row halloc
    simp only [Prod.mk.injEq] at ha
    obtain ⟨rfl, rfl⟩ := ha
    obtain ⟨old, hold, hstart, hend, hlt⟩ := allocate_bounds halloc
    refine ⟨⟨?_, ?_, ?_⟩, ?_, rfl, rfl, ?_⟩
    · refine List.pairwise_append.mpr ⟨h.ordered, List.pairwise_singleton _ _, ?_⟩
      intro a ha b hb
      rw [List.mem_singleton.mp hb]
      obtain ⟨row', hrow', hle⟩ := h.below a ha
      rw [hold] at hrow'
      cases hrow'
      show a.endExclusive.toInt ≤ bounds.1.toInt
      rw [hstart]
      exact hle
    · intro range hr
      refine ⟨row, rfl, ?_⟩
      rcases List.mem_append.mp hr with hr | hr
      · obtain ⟨row', hrow', hle⟩ := h.below range hr
        rw [hold] at hrow'
        cases hrow'
        omega
      · rw [List.mem_singleton.mp hr]
        show bounds.2.toInt ≤ _
        rw [hend]
    · intro range hr
      rcases List.mem_append.mp hr with hr | hr
      · exact h.counter range hr
      · rw [List.mem_singleton.mp hr]
        exact Or.inr (le_refl _)
    · intro r range hr
      have hlen := (List.getElem?_eq_some_iff.mp hr).1
      refine ⟨range, ?_, rfl, rfl, rfl, fun _ hn => hn⟩
      show (w.ranges ++ _)[r]? = _
      rw [List.getElem?_append_left hlen]
      exact hr
    · intro r hr
      cases hr
      refine ⟨⟨i, bounds.1, bounds.2, bounds.1, false⟩, ?_, rfl⟩
      show (w.ranges ++ _)[w.ranges.length]? = _
      rw [List.getElem?_append_right (Nat.le_refl _)]
      simp
  | replyLost =>
    simp only at ha
    split at ha
    · simp only [Prod.mk.injEq] at ha
      obtain ⟨rfl, rfl⟩ := ha
      exact ⟨h, grows_of_eq rfl, rfl, rfl, fun r hr => absurd hr (by simp)⟩
    rename_i bounds row halloc
    simp only [Prod.mk.injEq] at ha
    obtain ⟨rfl, rfl⟩ := ha
    obtain ⟨old, hold, -, -, hlt⟩ := allocate_bounds halloc
    refine ⟨⟨h.ordered, fun range hr => ⟨row, rfl, ?_⟩, h.counter⟩, grows_of_eq rfl, rfl, rfl,
      fun r hr => absurd hr (by simp)⟩
    obtain ⟨row', hrow', hle⟩ := h.below range hr
    rw [hold] at hrow'
    cases hrow'
    omega

/-! ## Drawing and returning -/

theorem not_wrapped {range : LocalRange} (hwrap : range.wrapped = false) {n : ℤ}
    (h : Past range n) : n < range.next.toInt := by
  rcases h with h | h
  · rw [hwrap] at h
    exact absurd h (by simp)
  · exact h

/-- An increment leaves behind the value it takes: the counter moves up by one, or wraps. -/
theorem past_increment (range : LocalRange) (n : ℤ) (hn : n ≤ range.next.toInt) :
    Past range.increment n := by
  by_cases hmax : range.next = Int64.maxValue
  · exact Or.inl (by simp [LocalRange.increment, hmax])
  · refine Or.inr ?_
    have hne : range.next.toInt ≠ 2 ^ 63 - 1 := fun he =>
      hmax (Int64.toInt_inj.mp (he.trans Int64.toInt_maxValue.symm))
    have hlow := range.next.le_toInt
    have hhigh := range.next.toInt_lt
    show n < (range.next + 1).toInt
    rw [Int64.toInt_add, Int64.toInt_one, Int.bmod_eq_of_le (by omega) (by omega)]
    omega

/-- **A draw takes an id no one else holds** and moves the counter past it. -/
theorem unique_draw (h : Unique w) {range : LocalRange}
    (ht : (w.instances i).threads t = .hasRange r) (hr : w.ranges[r]? = some range)
    (hwrap : range.wrapped = false) :
    Unique { (w.set i ((w.instances i).setThread t (.drew r range.next))) with
      ranges := w.ranges.set r range.increment } := by
  obtain ⟨range₀, hr₀, hown⟩ := (h.refs i).hasRange t r ht
  rw [hr] at hr₀
  cases hr₀
  have hlen := (List.getElem?_eq_some_iff.mp hr).1
  have hpast : ∀ n, n ≤ range.next.toInt → Past range.increment n := past_increment range
  generalize hw' : ({ (w.set i ((w.instances i).setThread t (.drew r range.next))) with
      ranges := w.ranges.set r range.increment } : World) = w'
  have hself : w'.ranges[r]? = some range.increment := by
    rw [← hw']
    exact List.getElem?_set_self hlen
  have hother : ∀ k, k ≠ r → w'.ranges[k]? = w.ranges[k]? := by
    intro k hk
    rw [← hw']
    exact List.getElem?_set_ne (Ne.symm hk)
  have hg : Grows w w' := by
    intro k a ha
    by_cases hk : k = r
    · subst hk
      rw [hr] at ha
      cases ha
      exact ⟨range.increment, hself, rfl, rfl, rfl, fun n hn =>
        hpast n (le_of_lt (not_wrapped hwrap hn))⟩
    · exact ⟨a, by rw [hother k hk]; exact ha, rfl, rfl, rfl, fun _ hn => hn⟩
  have hthread : ∀ j u k n, (w'.instances j).threads u = .drew k n →
      (j = i ∧ u = t ∧ k = r ∧ n = range.next) ∨ (w.instances j).threads u = .drew k n := by
    intro j u k n hj
    rw [← hw'] at hj
    by_cases hij : j = i
    · subst hij
      by_cases hu : u = t
      · subst hu
        have := hj
        simp only [World.set, Instance.setThread, Function.update_self, ThreadState.drew.injEq]
          at this
        exact Or.inl ⟨rfl, rfl, this.1.symm, this.2.symm⟩
      · exact Or.inr (by simpa [World.set, Instance.setThread, hu] using hj)
    · exact Or.inr (by simpa [World.set, hij] using hj)
  have hret : w'.returned = w.returned := by rw [← hw']; rfl
  have hstart : range.startInclusive.toInt ≤ range.next.toInt := by
    rcases h.ranges.counter range (List.mem_of_getElem? hr) with hw | hle
    · rw [hwrap] at hw
      exact absurd hw (by simp)
    · exact hle
  -- an id drawn before is below the counter
  have hbelow : ∀ {j k n}, Drawn w j k n → k = r → n.toInt < range.next.toInt := by
    rintro j k n ⟨a, ha, -, -, hlt⟩ rfl
    rw [hr] at ha
    cases ha
    exact not_wrapped hwrap hlt
  refine ⟨⟨?_, ?_, ?_⟩, fun j => ?_, fun j u k n hj => ?_, fun j u k v m n hj hk => ?_,
    fun y hy => ?_, ?_⟩
  · have hmap : w'.ranges.map (fun a => (a.endExclusive, a.startInclusive)) =
        w.ranges.map fun a => (a.endExclusive, a.startInclusive) := by
      apply List.ext_getElem?
      intro k
      rw [List.getElem?_map, List.getElem?_map]
      by_cases hk : k = r
      · subst hk
        rw [hself, hr]
        rfl
      · rw [hother k hk]
    have hp : (w.ranges.map fun a => (a.endExclusive, a.startInclusive)).Pairwise
        fun a b => a.1.toInt ≤ b.2.toInt := List.pairwise_map.mpr h.ranges.ordered
    rw [← hmap] at hp
    exact List.pairwise_map.mp hp
  · intro a ha
    have hseg : w'.segment = w.segment := by rw [← hw']; rfl
    obtain ⟨k, hk⟩ := List.mem_iff_getElem?.mp ha
    rw [hseg]
    by_cases hkr : k = r
    · subst hkr
      rw [hself] at hk
      cases hk
      exact h.ranges.below range (List.mem_of_getElem? hr)
    · rw [hother k hkr] at hk
      exact h.ranges.below a (List.mem_of_getElem? hk)
  · intro a ha
    obtain ⟨k, hk⟩ := List.mem_iff_getElem?.mp ha
    by_cases hkr : k = r
    · subst hkr
      rw [hself] at hk
      cases hk
      rcases hpast range.startInclusive.toInt hstart with hw | hlt
      · exact Or.inl hw
      · exact Or.inr (le_of_lt hlt)
    · rw [hother k hkr] at hk
      exact h.ranges.counter a (List.mem_of_getElem? hk)
  · have hrefs : Refs w j (w'.instances j) := by
      rw [← hw']
      by_cases hij : j = i
      · subst hij
        simp only [World.set, Function.update_self]
        exact (h.refs j).setThread fun k hk => absurd hk (by simp)
      · simp only [World.set, Function.update_of_ne hij]
        exact h.refs j
    exact hrefs.mono hg
  · rcases hthread j u k n hj with ⟨rfl, rfl, rfl, rfl⟩ | hold
    · refine ⟨⟨range.increment, hself, hown, hstart, hpast _ (le_refl _)⟩, ?_⟩
      rintro y hy ⟨hyr, hyid⟩
      rw [hret] at hy
      obtain ⟨a, ha, -, -, hlt, -⟩ := h.returned y hy
      rw [hyr, hr] at ha
      cases ha
      rw [hyid] at hlt
      exact absurd (not_wrapped hwrap hlt) (lt_irrefl _)
    · obtain ⟨hd, hy⟩ := h.drew j u k n hold
      exact ⟨hd.mono hg, by rw [hret]; exact hy⟩
  · rcases hthread j u m n hj with ⟨rfl, rfl, rfl, rfl⟩ | hj'
    · rcases hthread k v m _ hk with ⟨rfl, rfl, -, -⟩ | hk'
      · exact ⟨rfl, rfl⟩
      · exact absurd (hbelow (h.drew k v m _ hk').1 rfl) (lt_irrefl _)
    · rcases hthread k v m n hk with ⟨-, -, rfl, rfl⟩ | hk'
      · exact absurd (hbelow (h.drew j u m _ hj').1 rfl) (lt_irrefl _)
      · exact h.drewOnce j u k v m n hj' hk'
  · rw [hret] at hy
    obtain ⟨a, ha, ho, hs, hn, he⟩ := h.returned y hy
    obtain ⟨a', ha', ho', hs', he', hn'⟩ := hg y.range a ha
    exact ⟨a', ha', ho'.trans ho, by rw [hs']; exact hs, hn' _ hn, by rw [he']; exact he⟩
  · rw [hret]
    exact h.once

/-- **A return hands out what its thread alone has drawn.** -/
theorem unique_return (h : Unique w) {range : LocalRange}
    (ht : (w.instances i).threads t = .drew r id) (hr : w.ranges[r]? = some range)
    (hend : id < range.endExclusive) (hx : Refs w i x)
    (hdrew : ∀ u k n, x.threads u = .drew k n →
      u ≠ t ∧ (w.instances i).threads u = .drew k n) :
    Unique { (w.set i x) with returned := w.returned ++ [⟨i, r, id⟩] } := by
  have hset : Unique (w.set i x) := unique_set_same h hx fun u k n hu => (hdrew u k n hu).2
  obtain ⟨⟨a, ha, hown, hstart, hlt⟩, hfresh⟩ := h.drew i t r id ht
  rw [hr] at ha
  cases ha
  refine ⟨⟨hset.ranges.ordered, hset.ranges.below, hset.ranges.counter⟩, fun j => ?_,
    fun j u k n hj => ?_, hset.drewOnce, fun y hy => ?_, ?_⟩
  · exact (hset.refs j).mono (grows_of_eq rfl)
  · obtain ⟨hd, hy⟩ := hset.drew j u k n hj
    refine ⟨hd, fun y hmem => ?_⟩
    rcases List.mem_append.mp hmem with hmem | hmem
    · exact hy y hmem
    · rw [List.mem_singleton.mp hmem]
      rintro ⟨hk, hn⟩
      have hk : r = k := hk
      have hn : id = n := hn
      subst hk hn
      -- another thread with the same draw would be this one
      by_cases hij : j = i
      · subst hij
        have hu : x.threads u = .drew r id := by simpa [World.set] using hj
        obtain ⟨hut, hold⟩ := hdrew u r id hu
        exact hut (h.drewOnce j u j t r id hold ht).2
      · have hold : (w.instances j).threads u = .drew r id := by simpa [World.set, hij] using hj
        exact hij (h.drewOnce j u i t r id hold ht).1
  · rcases List.mem_append.mp hy with hy | hy
    · exact hset.returned y hy
    · rw [List.mem_singleton.mp hy]
      exact ⟨range, hr, hown, hstart, hlt, Int64.lt_iff_toInt_lt.mp hend⟩
  · rw [List.map_append, List.nodup_append]
    refine ⟨h.once, by simp, ?_⟩
    rintro p hp q hq rfl
    obtain ⟨y, hy, rfl⟩ := List.mem_map.mp hp
    have hpair : (y.range, y.id) = (r, id) := by simpa using hq
    exact hfresh y hy ⟨congrArg Prod.fst hpair, congrArg Prod.snd hpair⟩

/-! ## Every step -/

/-- A thread moves on to a state that names no range. -/
theorem unique_thread (h : Unique w) {state : ThreadState} (hrange : ∀ r, state ≠ .hasRange r)
    (hdrew : ∀ r id, state ≠ .drew r id) : Unique (w.set i ((w.instances i).setThread t state)) :=
  unique_set_same h ((h.refs i).setThread fun r hr => absurd hr (hrange r))
    fun u _ _ => drew_of_setThread hdrew u

/-- The test of a drawn id: it is returned, or the range is used up. -/
theorem unique_test (h : Unique w)
    (hstep : generatorStep cfg w (.test i t rejected) = some w') : Unique w' := by
  simp only [generatorStep] at hstep
  split at hstep
  · rename_i r id _ ht
    split at hstep
    · exact absurd hstep (by simp)
    rename_i range hr
    split at hstep
    · rename_i hend
      -- what the prefetch leaves of the instance
      generalize hp : (if range.endExclusive - id ≤ (cfg i).prefetchThreshold.toInt64 then
        (w.instances i).prefetch rejected else (w.instances i, false)) = p at hstep
      have hrefs : Refs w i p.1 := by
        rw [← hp]
        split
        · exact (h.refs i).prefetch rejected
        · exact h.refs i
      have hthreads : p.1.threads = (w.instances i).threads := by
        rw [← hp]
        split
        · exact (prefetch_eq _ rejected).2.2.1
        · rfl
      have hx : Refs w i (p.1.setThread t .idle) :=
        hrefs.setThread fun k hk => absurd hk (by simp)
      have hdrew : ∀ u k n, (p.1.setThread t .idle).threads u = .drew k n →
          u ≠ t ∧ (w.instances i).threads u = .drew k n := by
        intro u k n hu
        refine ⟨?_, ?_⟩
        · rintro rfl
          exact absurd hu (by simp [Instance.setThread])
        · rw [← hthreads]
          exact drew_of_setThread (fun _ _ => by simp) u hu
      split at hstep
      · cases hstep
        exact unique_set_same h hx fun u k n hu => (hdrew u k n hu).2
      · cases hstep
        exact unique_return h ht hr hend hx hdrew
    · cases hstep
      exact unique_thread h nofun nofun
  · exact absurd hstep (by simp)

/-- The refill under the monitor. -/
theorem unique_refill (h : Unique w)
    (hstep : generatorStep cfg w (.refill i t rejected) = some w') : Unique w' := by
  simp only [generatorStep] at hstep
  split at hstep
  · split at hstep
    · cases hstep
      exact unique_thread h nofun nofun
    split at hstep
    · rename_i r hnext
      cases hstep
      have hswap : Refs w i { w.instances i with current := some r, next := none } :=
        ⟨fun k hk => by cases hk; exact (h.refs i).next r hnext, fun k hk => absurd hk (by simp),
          (h.refs i).task, (h.refs i).hasRange⟩
      refine unique_set_same h ((hswap.prefetch rejected).setThread fun k hk => ?_)
        fun u k n hu => ?_
      · exact absurd hk (by split <;> simp)
      · have := drew_of_setThread (fun _ _ => by split <;> simp) u hu
        rwa [(prefetch_eq _ rejected).2.2.1] at this
    · cases hstep
      refine unique_set_same h (Refs.setThread ?_ fun r hr => absurd hr (by simp))
        fun u r id => drew_of_setThread (fun _ _ => by simp) u
      exact ⟨(h.refs i).current, (h.refs i).next, (h.refs i).task, (h.refs i).hasRange⟩
  · exact absurd hstep (by simp)

/-- The allocation under the monitor. -/
theorem unique_refillAllocate (h : Unique w)
    (hstep : generatorStep cfg w (.refillAllocate i t outcome rejected) = some w') : Unique w' := by
  simp only [generatorStep] at hstep
  split at hstep
  · split at hstep
    · rename_i w₁ halloc
      obtain ⟨hranges, hg, hi, hret, -⟩ := allocateRange_spec h.ranges halloc
      cases hstep
      have hfree : Refs w₁ i { w.instances i with monitor := none } :=
        Refs.mono ⟨(h.refs i).current, (h.refs i).next, (h.refs i).task, (h.refs i).hasRange⟩ hg
      exact unique_set h hranges hg hi hret
        (hfree.setThread fun r hr => absurd hr (by simp))
        fun u r id => drew_of_setThread (fun _ _ => by simp) u
    · rename_i w₁ r halloc
      obtain ⟨hranges, hg, hi, hret, hown⟩ := allocateRange_spec h.ranges halloc
      cases hstep
      have hnew : Refs w₁ i { w.instances i with monitor := none, current := some r } :=
        ⟨fun k hk => by cases hk; exact hown r rfl, fun k hk => ((h.refs i).next k hk).mono hg,
          fun k hk => ((h.refs i).task k hk).mono hg,
          fun u k hk => ((h.refs i).hasRange u k hk).mono hg⟩
      refine unique_set h hranges hg hi hret
        ((hnew.prefetch rejected).setThread fun k hk => ?_) fun u k n hu => ?_
      · exact absurd hk (by split <;> simp)
      · have := drew_of_setThread (fun _ _ => by split <;> simp) u hu
        rwa [(prefetch_eq _ rejected).2.2.1] at this
  · exact absurd hstep (by simp)

/-- The allocation of the prefetch task. -/
theorem unique_prefetchAllocate (h : Unique w)
    (hstep : generatorStep cfg w (.prefetchAllocate i outcome) = some w') : Unique w' := by
  simp only [generatorStep] at hstep
  split at hstep
  · split at hstep
    · rename_i w₁ halloc
      obtain ⟨hranges, hg, hi, hret, -⟩ := allocateRange_spec h.ranges halloc
      cases hstep
      have hx := (h.refs i).mono hg
      exact unique_set h hranges hg hi hret
        ⟨hx.current, hx.next, fun k hk => absurd hk (by simp), hx.hasRange⟩ fun _ _ _ hu => hu
    · rename_i w₁ r halloc
      obtain ⟨hranges, hg, hi, hret, hown⟩ := allocateRange_spec h.ranges halloc
      cases hstep
      have hx := (h.refs i).mono hg
      exact unique_set h hranges hg hi hret
        ⟨hx.current, hx.next, fun k hk => by cases hk; exact hown r rfl, hx.hasRange⟩
        fun _ _ _ hu => hu
  · exact absurd hstep (by simp)

/-- **Every step that takes no id from a wrapped counter keeps the invariant.** -/
theorem unique_step : Preserves (generatorStep cfg) (fun w a => noWrap w a = true) Unique := by
  intro w a w' hguard h hstep
  cases a with
  | call i t =>
    simp only [generatorStep] at hstep
    split at hstep
    · cases hstep
      exact unique_thread h nofun nofun
    · exact absurd hstep (by simp)
  | readCurrent i t =>
    simp only [generatorStep] at hstep
    split at hstep
    · split at hstep
      · cases hstep
        exact unique_thread h nofun nofun
      · rename_i r hcur
        cases hstep
        refine unique_set_same h ((h.refs i).setThread fun k hk => ?_)
          fun u k id => drew_of_setThread (fun _ _ => by simp) u
        cases hk
        exact (h.refs i).current r hcur
    · exact absurd hstep (by simp)
  | draw i t =>
    simp only [generatorStep] at hstep
    split at hstep
    · rename_i r _ ht
      split at hstep
      · exact absurd hstep (by simp)
      · rename_i range hr
        cases hstep
        exact unique_draw h ht hr (by simpa [noWrap, rangeOf, ht, hr] using hguard)
    · exact absurd hstep (by simp)
  | test i t rejected => exact unique_test h hstep
  | refill i t rejected => exact unique_refill h hstep
  | refillAllocate i t outcome rejected => exact unique_refillAllocate h hstep
  | prefetchAllocate i outcome => exact unique_prefetchAllocate h hstep
  | prefetchPublish i =>
    simp only [generatorStep] at hstep
    split at hstep
    · rename_i r _ htask _
      cases hstep
      refine unique_set_same h ⟨(h.refs i).current, fun k hk => ?_, fun k hk => absurd hk (by simp),
        (h.refs i).hasRange⟩ fun _ _ _ hu => hu
      by_cases hn : (w.instances i).next.isSome
      · simp only [hn, if_true] at hk
        exact (h.refs i).next k hk
      · simp only [hn] at hk
        cases hk
        exact (h.refs i).task r htask
    · exact absurd hstep (by simp)
  | prefetchFinish i =>
    simp only [generatorStep] at hstep
    split at hstep
    · cases hstep
      exact unique_set_same h ⟨(h.refs i).current, (h.refs i).next,
        fun k hk => absurd hk (by simp), (h.refs i).hasRange⟩ fun _ _ _ hu => hu
    · exact absurd hstep (by simp)
  | crash i =>
    cases hstep
    exact unique_set_same h ⟨(h.refs i).current, (h.refs i).next, (h.refs i).task,
      (h.refs i).hasRange⟩ fun _ _ _ hu => hu

theorem unique_initial (segment : Option IdSegment) : Unique (World.initial segment) where
  ranges := ⟨List.Pairwise.nil, by simp [World.initial], by simp [World.initial]⟩
  refs i := by constructor <;> simp [World.initial, Instance.fresh]
  drew := by simp [World.initial, Instance.fresh]
  drewOnce := by simp [World.initial, Instance.fresh]
  returned := by simp [World.initial]
  once := by simp [World.initial]

/-- The invariant says that the returned ids are distinct: equal ids lie in one range, since the
ranges are disjoint. -/
theorem Unique.idsUnique (h : Unique w) : IdsUnique w := by
  constructor
  · have hnodup : w.returned.Nodup := h.once.of_map _
    refine hnodup.map_on fun x hx y hy hid => ?_
    obtain ⟨a, ha, hao, has, -, hae⟩ := h.returned x hx
    obtain ⟨b, hb, hbo, hbs, -, hbe⟩ := h.returned y hy
    have hord := List.pairwise_iff_getElem.mp h.ranges.ordered
    obtain ⟨hxl, hxa⟩ := List.getElem?_eq_some_iff.mp ha
    obtain ⟨hyl, hyb⟩ := List.getElem?_eq_some_iff.mp hb
    have hrange : x.range = y.range := by
      rcases Nat.lt_trichotomy x.range y.range with hlt | heq | hlt
      · have := hord _ _ hxl hyl hlt
        rw [hxa, hyb] at this
        rw [hid] at hae
        omega
      · exact heq
      · have := hord _ _ hyl hxl hlt
        rw [hxa, hyb] at this
        rw [← hid] at hbe
        omega
    exact List.inj_on_of_nodup_map h.once hx hy (by rw [hrange, hid])
  · intro x hx
    obtain ⟨a, ha, ho, hs, -, he⟩ := h.returned x hx
    exact ⟨a, List.mem_of_getElem? ha, ho, Int64.le_iff_toInt_le.mpr hs,
      Int64.lt_iff_toInt_lt.mpr he⟩

/-! ## Runs -/

/-- **Order ids are globally unique** in every run, of any number of instances and threads and
from any row of `tb_id_segment`, whose steps take no id from a counter that has wrapped. -/
theorem ids_unique (cfg : ℕ → GeneratorConfig) (segment : Option IdSegment)
    (actions : List GeneratorAction) (w : World)
    (hrun : run (generatorStep cfg) (World.initial segment) actions = some w)
    (hwrap : Along (generatorStep cfg) (fun w a => noWrap w a = true) (World.initial segment)
      actions) : IdsUnique w :=
  (run_invariant unique_step hwrap (unique_initial segment) hrun).idsUnique

/-- Segments of 100 ids, a fifth of them left when the next one is fetched. -/
def hundredEach : ℕ → GeneratorConfig := fun _ => ⟨100, 20⟩

/-- One call of thread 0 of instance 0 that finds an id in the current range. -/
def oneCall : List GeneratorAction := [.call 0 0, .readCurrent 0 0, .draw 0 0, .test 0 0 false]

/-- The first call, which finds no range and allocates one. -/
def firstCall : List GeneratorAction :=
  [.call 0 0, .readCurrent 0 0, .refill 0 0 false, .refillAllocate 0 0 .ok false,
    .readCurrent 0 0, .draw 0 0, .test 0 0 false]

/-- Two calls on the row the migration inserts. -/
theorem ids_unique_two_calls : ∃ w, run (generatorStep hundredEach)
      (World.initial (some ⟨4611686018427387904, 10000⟩)) (firstCall ++ oneCall) = some w ∧
    w.returned.map Issued.id = [4611686018427387904, 4611686018427387905] ∧ IdsUnique w :=
  ⟨_, rfl, rfl, ids_unique hundredEach (some ⟨4611686018427387904, 10000⟩)
    (firstCall ++ oneCall) _ rfl (by decide +kernel)⟩

/-! ### The last segment -/

/-- The row with one segment of 100 left below `Long.MAX_VALUE`. -/
def lastSegment : Option IdSegment := some ⟨9223372036854775707, 100⟩

/-- A hundred calls spend the last segment. The next one draws `Long.MAX_VALUE`, which is past
its end, finds in `refill` a counter that has wrapped, and draws again. -/
def pastTheEnd : List GeneratorAction :=
  firstCall ++ (List.replicate 100 oneCall).flatten ++
    [.refill 0 0 false, .readCurrent 0 0, .draw 0 0, .test 0 0 false]

/-- **The law fails**: `nextId` returns `Long.MIN_VALUE`, which lies in no segment. -/
theorem wrapped_id_is_returned :
    ¬∀ (cfg : ℕ → GeneratorConfig) (segment : Option IdSegment)
      (actions : List GeneratorAction) (w : World),
      run (generatorStep cfg) (World.initial segment) actions = some w → IdsUnique w := by
  intro h
  have hbad : (run (generatorStep hundredEach) (World.initial lastSegment) pastTheEnd).any
      (fun w => decide ¬IdsUnique w) = true := by decide +kernel
  obtain ⟨w, hw, hne⟩ := (Option.any_eq_true _ _).mp hbad
  exact of_decide_eq_true hne (h _ _ _ w hw)

end Hmdp.IdSegment
