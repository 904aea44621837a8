import Hmdp.IdSegment.Unique
import Hmdp.Model.RedisIdWorker

/-!
# Ids of `RedisIdWorker`

An id has its timestamp in the upper 32 bits and its count in the lower. Two calls of one prefix
with one timestamp have one date, so they have incremented one counter and got two values; that
the clocks are skewed or jump only decides which counters are used. The values stay below 2^62,
where the segments start.

* `compose_toInt`: the packing as arithmetic.
* `counted_step`: counters only grow, and no value of a counter is returned twice.
* `above_step`: no segment starts below the first high-water mark.
* **`redis_ids_unique`**: distinct, positive, and in no segment.
-/

namespace Hmdp.IdSegment

open Hmdp.Lib Hmdp.Model Hmdp.Model.RedisIdWorker

variable {s t : RedisIdWorker.State} {a : RedisIdWorker.Action}

/-! ## Packing -/

theorem toInt_eq_toNat {x : Long} (hx : 0 ≤ x.toInt) : x.toInt = (x.toBitVec.toNat : ℤ) := by
  have hcond := BitVec.toInt_eq_toNat_cond x.toBitVec
  change x.toInt = _ at hcond
  have := x.toBitVec.isLt
  split at hcond <;> omega

/-- **The packing as arithmetic**, for a timestamp below 2^30 and a count below 2^32. -/
theorem compose_toInt {timestamp count : Long} (ht : 0 ≤ timestamp.toInt)
    (ht' : timestamp.toInt < 1073741824) (hc : 0 ≤ count.toInt) (hc' : count.toInt < 4294967296) :
    (compose timestamp count).toInt = timestamp.toInt * 4294967296 + count.toInt := by
  have ht₂ := toInt_eq_toNat ht
  have hc₂ := toInt_eq_toNat hc
  have hbits : (compose timestamp count).toBitVec =
      timestamp.toBitVec <<< 32 ||| count.toBitVec := by simp [compose]
  have hnat : (compose timestamp count).toBitVec.toNat =
      timestamp.toBitVec.toNat * 4294967296 + count.toBitVec.toNat := by
    rw [hbits, BitVec.toNat_or, BitVec.toNat_shiftLeft, Nat.shiftLeft_eq,
      Nat.mod_eq_of_lt (by omega), ← Nat.shiftLeft_eq,
      ← Nat.shiftLeft_add_eq_or_of_lt (by omega), Nat.shiftLeft_eq]
  have hcond := BitVec.toInt_eq_toNat_cond (compose timestamp count).toBitVec
  change (compose timestamp count).toInt = _ at hcond
  rw [hnat] at hcond
  split at hcond <;> omega

/-! ## Runs of `nextId` -/

/-- The reading lies between 2022-01-01 and the second with timestamp 2^30. -/
def InTime (nowSecond : Long) : Prop :=
  1640995200 ≤ nowSecond.toInt ∧ nowSecond.toInt < 2714737024

/-- The step reads a clock that shows a time of the range, and gets a count of 32 bits. -/
def Ordinary (s : RedisIdWorker.State) : RedisIdWorker.Action → Prop
  | .readClock _ _ nowSecond => InTime nowSecond
  | .increment i => ∀ call, s.calls i = some call →
    1 ≤ (s.nextCount call).toInt ∧ (s.nextCount call).toInt < 4294967296

instance (s : RedisIdWorker.State) (a : RedisIdWorker.Action) : Decidable (Ordinary s a) :=
  match a with
  | .readClock _ _ nowSecond =>
    inferInstanceAs (Decidable (1640995200 ≤ nowSecond.toInt ∧ nowSecond.toInt < 2714737024))
  | .increment i =>
    match h : s.calls i with
    | none => isTrue fun _ hc => absurd (h.symm.trans hc) (by simp)
    | some call =>
      decidable_of_iff
        (1 ≤ (s.nextCount call).toInt ∧ (s.nextCount call).toInt < 4294967296)
        ⟨fun hc c hcall => Option.some.inj (h.symm.trans hcall) ▸ hc, fun hc => hc call h⟩

/-- What is known of a returned value. -/
structure Sound (counters : Text → Option Long) (r : Returned) : Prop where
  inTime : InTime r.nowSecond
  positive : 1 ≤ r.count.toInt
  short : r.count.toInt < 4294967296
  /-- its counter has passed its count -/
  passed : ∃ v, counters (counterKey r.keyPrefix r.nowSecond) = some v ∧ r.count.toInt ≤ v.toInt

/-- The invariant: the counts of one counter are distinct. -/
structure Counted (s : RedisIdWorker.State) : Prop where
  calls : ∀ i call, s.calls i = some call → InTime call.nowSecond
  sound : ∀ r ∈ s.returned, Sound s.counters r
  distinct : s.returned.Pairwise fun q r =>
    counterKey q.keyPrefix q.nowSecond = counterKey r.keyPrefix r.nowSecond → q.count ≠ r.count

/-- `INCR` raises its counter by one. -/
theorem nextCount_toInt {call : Call} {v : Long}
    (hv : s.counters (counterKey call.keyPrefix call.nowSecond) = some v)
    (hmax : v ≠ Int64.maxValue) : (s.nextCount call).toInt = v.toInt + 1 := by
  have hlt : v.toInt < 2 ^ 63 - 1 := by
    have := v.toInt_lt
    by_contra hle
    refine hmax (Int64.toInt_inj.mp ?_)
    rw [Int64.toInt_maxValue]
    omega
  have := v.le_toInt
  rw [State.nextCount, hv, Option.getD_some, Int64.toInt_add, Int64.toInt_one,
    Int.bmod_eq_of_le (by omega) (by omega)]

theorem counted_step : Preserves RedisIdWorker.step Ordinary Counted := by
  intro s a t hord hs hstep
  cases a with
  | readClock i keyPrefix nowSecond =>
    simp only [RedisIdWorker.step] at hstep
    split at hstep
    · exact absurd hstep (by simp)
    · cases hstep
      refine ⟨fun j call hj => ?_, hs.sound, hs.distinct⟩
      by_cases hji : j = i
      · rw [hji] at hj
        simp only [Function.update_self, Option.some.injEq] at hj
        rw [← hj]
        exact hord
      · simp only [Function.update_of_ne hji] at hj
        exact hs.calls j call hj
  | increment i =>
    simp only [RedisIdWorker.step] at hstep
    split at hstep
    · exact absurd hstep (by simp)
    rename_i call hcall
    have hcalls : ∀ j c, Function.update s.calls i none j = some c → InTime c.nowSecond := by
      intro j c hj
      by_cases hji : j = i
      · rw [hji, Function.update_self] at hj
        exact absurd hj (by simp)
      · rw [Function.update_of_ne hji] at hj
        exact hs.calls j c hj
    split at hstep
    · cases hstep
      exact ⟨hcalls, hs.sound, hs.distinct⟩
    rename_i hmax
    cases hstep
    obtain ⟨hpos, hshort⟩ := hord call hcall
    -- what was returned before from this counter is below the new count
    have hbelow : ∀ r ∈ s.returned, counterKey r.keyPrefix r.nowSecond =
        counterKey call.keyPrefix call.nowSecond → r.count.toInt < (s.nextCount call).toInt := by
      intro r hr hkey
      obtain ⟨v, hv, hle⟩ := (hs.sound r hr).passed
      rw [hkey] at hv
      rw [nextCount_toInt hv fun he => hmax (by rw [hv, he])]
      omega
    refine ⟨hcalls, fun r hr => ?_, ?_⟩
    · rcases List.mem_append.mp hr with hr | hr
      · have hsound := hs.sound r hr
        refine ⟨hsound.inTime, hsound.positive, hsound.short, ?_⟩
        by_cases hkey : counterKey r.keyPrefix r.nowSecond =
            counterKey call.keyPrefix call.nowSecond
        · refine ⟨s.nextCount call, ?_, Int.le_of_lt (hbelow r hr hkey)⟩
          rw [hkey]
          exact Function.update_self _ _ _
        · obtain ⟨v, hv, hle⟩ := hsound.passed
          exact ⟨v, (Function.update_of_ne hkey _ _).trans hv, hle⟩
      · rw [List.mem_singleton.mp hr]
        exact ⟨hs.calls i call hcall, hpos, hshort, s.nextCount call, Function.update_self _ _ _,
          le_refl _⟩
    · refine List.pairwise_append.mpr ⟨hs.distinct, List.pairwise_singleton _ _, ?_⟩
      intro q hq r hr hkey heq
      rw [List.mem_singleton.mp hr] at hkey heq
      have := hbelow q hq hkey
      rw [heq] at this
      exact lt_irrefl _ this

theorem counted_initial (counters : Text → Option Long) :
    Counted (RedisIdWorker.initial counters) where
  calls i call h := absurd h (by simp [RedisIdWorker.initial])
  sound r hr := absurd hr (by simp [RedisIdWorker.initial])
  distinct := List.Pairwise.nil

theorem Sound.timestamp {counters : Text → Option Long} {r : Returned} (h : Sound counters r) :
    (r.nowSecond - beginTimestamp).toInt = r.nowSecond.toInt - 1640995200 := by
  obtain ⟨hlow, hhigh⟩ := h.inTime
  have hbegin : beginTimestamp.toInt = 1640995200 := by decide
  rw [Int64.toInt_sub, hbegin, Int.bmod_eq_of_le (by omega) (by omega)]

/-- **An id is its timestamp and its count.** -/
theorem Sound.id_toInt {counters : Text → Option Long} {r : Returned} (h : Sound counters r) :
    r.id.toInt = (r.nowSecond.toInt - 1640995200) * 4294967296 + r.count.toInt := by
  obtain ⟨hlow, hhigh⟩ := h.inTime
  have hts := h.timestamp
  have hpos := h.positive
  rw [Returned.id, compose_toInt (by omega) (by omega) (by omega) h.short, hts]

/-- The ids of one prefix are distinct. -/
theorem Counted.ids_nodup (hs : Counted s) (keyPrefix : Text) :
    ((s.returned.filter fun r => decide (r.keyPrefix = keyPrefix)).map Returned.id).Nodup := by
  rw [List.Nodup, List.pairwise_map]
  have hsub := (List.filter_sublist (l := s.returned)
    (p := fun r => decide (r.keyPrefix = keyPrefix)))
  have hdistinct := hs.distinct.sublist hsub
  refine (List.pairwise_iff_forall_sublist.mpr ?_ : List.Pairwise _ _)
  intro q r hqr hid
  have hmem : ∀ x ∈ [q, r], x ∈ s.returned ∧ x.keyPrefix = keyPrefix := fun x hx => by
    simpa using List.mem_filter.mp (hqr.subset hx)
  obtain ⟨hq, hqp⟩ := hmem q (by simp)
  obtain ⟨hr, hrp⟩ := hmem r (by simp)
  -- the ids agree, so the timestamps and the counts do
  have hqid := (hs.sound q hq).id_toInt
  have hrid := (hs.sound r hr).id_toInt
  have hq₁ := (hs.sound q hq).positive
  have hq₂ := (hs.sound q hq).short
  have hr₁ := (hs.sound r hr).positive
  have hr₂ := (hs.sound r hr).short
  rw [hid] at hqid
  have hnow : q.nowSecond = r.nowSecond := Int64.toInt_inj.mp (by omega)
  have hcount : q.count = r.count := Int64.toInt_inj.mp (by omega)
  exact List.pairwise_iff_forall_sublist.mp hdistinct hqr (by rw [hqp, hrp, hnow]) hcount

/-! ## The segments -/

/-- No range starts below the bound, and the row is past it. -/
structure Above (bound : ℤ) (w : World) : Prop where
  row : ∀ row, w.segment = some row → bound ≤ row.maxId.toInt
  ranges : ∀ range ∈ w.ranges, bound ≤ range.startInclusive.toInt

theorem above_allocateRange {bound : ℤ} {cfg : ℕ → GeneratorConfig} {i : ℕ}
    {outcome : AllocationOutcome} {w : World} (h : Above bound w) :
    Above bound (allocateRange cfg i outcome w).1 := by
  unfold allocateRange
  cases outcome with
  | failed => exact h
  | ok =>
    simp only
    split
    · exact h
    · rename_i bounds row halloc
      obtain ⟨old, hold, hstart, -, hlt⟩ := allocate_bounds halloc
      have hle := h.row old hold
      refine ⟨fun row' hrow => ?_, fun range hr => ?_⟩
      · cases hrow
        omega
      · rcases List.mem_append.mp hr with hr | hr
        · exact h.ranges range hr
        · rw [List.mem_singleton.mp hr]
          show bound ≤ bounds.1.toInt
          rw [hstart]
          exact hle
  | replyLost =>
    simp only
    split
    · exact h
    · rename_i bounds row halloc
      obtain ⟨old, hold, -, -, hlt⟩ := allocate_bounds halloc
      have hle := h.row old hold
      refine ⟨fun row' hrow => ?_, h.ranges⟩
      cases hrow
      omega

/-- **No step of the generator goes below the bound.** -/
theorem above_step {bound : ℤ} {cfg : ℕ → GeneratorConfig} {w w' : World}
    {action : GeneratorAction} (h : Above bound w) (hstep : generatorStep cfg w action = some w') :
    Above bound w' := by
  have hset : ∀ {u : World} {i : ℕ} {x : Instance}, Above bound u → Above bound (u.set i x) :=
    fun hu => ⟨hu.row, hu.ranges⟩
  unfold generatorStep at hstep
  cases action with
  | call i t =>
    simp only at hstep
    split at hstep <;> cases hstep
    exact hset h
  | readCurrent i t =>
    simp only at hstep
    split at hstep
    · split at hstep <;> cases hstep <;> exact hset h
    · exact absurd hstep (by simp)
  | draw i t =>
    simp only at hstep
    split at hstep
    · split at hstep
      · exact absurd hstep (by simp)
      · rename_i r _ _ _ range hr
        cases hstep
        refine ⟨h.row, fun x hx => ?_⟩
        -- the counter moves, the start stays
        rcases List.mem_or_eq_of_mem_set hx with hx | rfl
        · exact h.ranges x hx
        · exact h.ranges range (List.mem_of_getElem? hr)
    · exact absurd hstep (by simp)
  | test i t rejected =>
    simp only at hstep
    split at hstep
    · split at hstep
      · exact absurd hstep (by simp)
      split at hstep
      · split at hstep <;> split at hstep <;> cases hstep <;> exact ⟨h.row, h.ranges⟩
      · cases hstep
        exact hset h
    · exact absurd hstep (by simp)
  | refill i t rejected =>
    simp only at hstep
    split at hstep
    · split at hstep
      · cases hstep
        exact hset h
      split at hstep <;> cases hstep <;> exact hset h
    · exact absurd hstep (by simp)
  | refillAllocate i t outcome rejected =>
    have hallocated := @above_allocateRange bound cfg i outcome w h
    simp only at hstep
    split at hstep
    · split at hstep <;>
      · rename_i halloc
        rw [halloc] at hallocated
        cases hstep
        exact hset hallocated
    · exact absurd hstep (by simp)
  | prefetchAllocate i outcome =>
    have hallocated := @above_allocateRange bound cfg i outcome w h
    simp only at hstep
    split at hstep
    · split at hstep <;>
      · rename_i halloc
        rw [halloc] at hallocated
        cases hstep
        exact hset hallocated
    · exact absurd hstep (by simp)
  | prefetchPublish i =>
    simp only at hstep
    split at hstep <;> cases hstep
    exact hset h
  | prefetchFinish i =>
    simp only at hstep
    split at hstep <;> cases hstep
    exact hset h
  | crash i =>
    cases hstep
    exact hset h

/-! ## The law -/

/-- **Redis ids are unique and in no segment.** In every run of `nextId` whose clocks show times
of the range and whose counts have 32 bits, the ids of each prefix are distinct, and each is
positive and below 2^62; and no range of any run of the segment generator from the row of the
migration contains one, whatever its step. -/
theorem redis_ids_unique (counters : Text → Option Long) {s : RedisIdWorker.State}
    {as : List RedisIdWorker.Action}
    (hrun : run RedisIdWorker.step (RedisIdWorker.initial counters) as = some s)
    (hord : Along RedisIdWorker.step Ordinary (RedisIdWorker.initial counters) as) :
    (∀ keyPrefix,
      ((s.returned.filter fun r => decide (r.keyPrefix = keyPrefix)).map Returned.id).Nodup) ∧
    (∀ r ∈ s.returned, 0 < r.id.toInt ∧ r.id.toInt < 4611686018427387904) ∧
    ∀ (cfg : ℕ → GeneratorConfig) (rowStep : Int32) (bs : List GeneratorAction) (w : World),
      run (generatorStep cfg) (World.initial (some ⟨4611686018427387904, rowStep⟩)) bs = some w →
      ∀ r ∈ s.returned, ∀ range ∈ w.ranges,
        ¬(range.startInclusive ≤ r.id ∧ r.id < range.endExclusive) := by
  have hs : Counted s := run_invariant counted_step hord (counted_initial counters) hrun
  have hbounds : ∀ r ∈ s.returned, 0 < r.id.toInt ∧ r.id.toInt < 4611686018427387904 := by
    intro r hr
    have hsound := hs.sound r hr
    obtain ⟨hlow, hhigh⟩ := hsound.inTime
    have hpos := hsound.positive
    have hshort := hsound.short
    rw [hsound.id_toInt]
    omega
  refine ⟨hs.ids_nodup, hbounds, ?_⟩
  intro cfg rowStep bs w hw r hr range hrange hin
  have hfirst : Above 4611686018427387904
      (World.initial (some ⟨4611686018427387904, rowStep⟩)) := by
    refine ⟨fun row hrow => ?_, fun x hx => absurd hx (by simp [World.initial])⟩
    cases hrow
    show (4611686018427387904 : ℤ) ≤ (4611686018427387904 : Long).toInt
    decide
  have habove := run_invariant' (fun _ _ _ h hstep => above_step h hstep) hfirst hw
  have hstart := habove.ranges range hrange
  have hle := Int64.le_iff_toInt_le.mp hin.1
  have := (hbounds r hr).2
  omega

/-- Two calls in the last second of a day and one, of an instance whose clock is ahead, in the
first of the next. -/
def aroundMidnight : List RedisIdWorker.Action :=
  [.readClock 0 "order".toList 1641052799, .readClock 1 "order".toList 1641052800,
    .readClock 2 "order".toList 1641052799, .increment 1, .increment 2, .increment 0]

theorem redis_ids_unique_aroundMidnight :
    ∃ s, run RedisIdWorker.step (RedisIdWorker.initial fun _ => none) aroundMidnight = some s ∧
      s.returned.map Returned.id = [247390116249601, 247385821282305, 247385821282306] ∧
      ∀ r ∈ s.returned, 0 < r.id.toInt ∧ r.id.toInt < 4611686018427387904 := by
  obtain ⟨s, hs, hids⟩ := Option.map_eq_some_iff.mp
    (show (run RedisIdWorker.step (RedisIdWorker.initial fun _ => none) aroundMidnight).map
      (fun s => s.returned.map Returned.id) =
        some [247390116249601, 247385821282305, 247385821282306] by decide +kernel)
  have hord : Along RedisIdWorker.step Ordinary (RedisIdWorker.initial fun _ => none)
      aroundMidnight := by
    decide +kernel
  exact ⟨s, hs, hids, (redis_ids_unique (fun _ => none) hs hord).2.1⟩

end Hmdp.IdSegment
