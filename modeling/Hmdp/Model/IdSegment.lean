import Hmdp.Lib.Machine
import Hmdp.Model.Types

/-!
# Order ids from database segments

`DatabaseSegmentOrderIdGenerator` on any number of JVM instances over one row of `tb_id_segment`,
as a machine whose labels are the atomic steps of the code: of `nextId` the read of `current`,
the `getAndIncrement` and the bound test; of `refill` its part up to the allocation and the
allocation itself, both under the monitor; of the prefetch task its allocation, the publication
under the monitor and the reset of the flag. Two of these are coarser than the code: the test of
`next` and the `compareAndSet` of `prefetch` are one step, and the body of `refill` on either side
of its allocation is one, although others read `current` and `next` without the monitor. An
allocation transaction holds the row lock, so it is one step; it may fail, or commit and lose its
reply. A prefetch may be rejected by the executor. An instance may crash at any time.

Counters and bounds are Java `long`s: `getAndIncrement` wraps from `Long.MAX_VALUE` to
`Long.MIN_VALUE`. A `LocalRange` is a reference into `ranges`, the ranges ever created;
`returned` records what `nextId` has returned.
-/

namespace Hmdp.Model

/-! ## `IdSegmentAllocator` -/

/-- The row `voucher-order` of `tb_id_segment`. -/
structure IdSegment where
  maxId : Long
  step : Int32

/-- `IdSegmentAllocator.allocate`: the bounds of the range and the advanced row; `none` where it
throws. -/
def allocate (configuredStep : Int32) (segment : Option IdSegment) :
    Option ((Long × Long) × IdSegment) :=
  match segment with
  | none => none
  | some row =>
    let step := if 0 < configuredStep then configuredStep else row.step
    if step ≤ 0 ∨ Int64.maxValue - step.toInt64 < row.maxId then none
    else
      some ((row.maxId, row.maxId + step.toInt64), { row with maxId := row.maxId + step.toInt64 })

/-! ## `DatabaseSegmentOrderIdGenerator` -/

/-- `segment-step` and `prefetch-percent` of one instance. -/
structure GeneratorConfig where
  segmentStep : Int32
  prefetchPercent : Int32

/-- `Math.max(100, step)`. -/
def GeneratorConfig.step (c : GeneratorConfig) : Int32 :=
  if c.segmentStep ≤ 100 then 100 else c.segmentStep

/-- `Math.max(1, step * percent / 100)` with the percentage clamped to 1 to 90. -/
def GeneratorConfig.prefetchThreshold (c : GeneratorConfig) : Int32 :=
  let percent : Int32 :=
    if c.prefetchPercent ≤ 1 then 1 else if 90 ≤ c.prefetchPercent then 90 else c.prefetchPercent
  let threshold := c.step * percent / 100
  if threshold ≤ 1 then 1 else threshold

/-- A `LocalRange`, with the instance and the start it was created with, and whether its counter
has ever been incremented at `Long.MAX_VALUE`. -/
structure LocalRange where
  owner : ℕ
  startInclusive : Long
  endExclusive : Long
  next : Long
  wrapped : Bool

/-- `next.getAndIncrement()`: the range afterwards. -/
def LocalRange.increment (range : LocalRange) : LocalRange :=
  { range with
    next := range.next + 1
    wrapped := range.wrapped || decide (range.next = Int64.maxValue) }

/-- Where a thread stands in `nextId`. -/
inductive ThreadState where
  /-- not in a call -/
  | idle
  /-- at the top of the loop -/
  | loop
  /-- `range` read and not null -/
  | hasRange (range : ℕ)
  /-- `getAndIncrement` done -/
  | drew (range : ℕ) (id : Long)
  /-- about to enter `refill` -/
  | refill
  /-- in `refill`, holding the monitor, about to allocate -/
  | allocating

/-- Where the prefetch task stands. -/
inductive TaskState where
  | none
  | queued
  /-- allocated, not yet published -/
  | allocated (range : ℕ)
  /-- about to reset the flag -/
  | finishing

/-- One JVM. -/
structure Instance where
  alive : Bool
  current : Option ℕ
  next : Option ℕ
  prefetching : Bool
  task : TaskState
  /-- the thread that holds `refillMonitor` across its allocation -/
  monitor : Option ℕ
  threads : ℕ → ThreadState

/-- A started instance. -/
def Instance.fresh : Instance := ⟨true, none, none, false, .none, none, fun _ => .idle⟩

/-- An id `nextId` has returned. -/
structure Issued where
  owner : ℕ
  range : ℕ
  id : Long

/-- The row of the segment, the server instances, and what they have taken and returned. -/
structure World where
  segment : Option IdSegment
  ranges : List LocalRange
  instances : ℕ → Instance
  returned : List Issued

/-- Nothing allocated yet; the row is as given. -/
def World.initial (segment : Option IdSegment) : World :=
  ⟨segment, [], fun _ => Instance.fresh, []⟩

/-- How an allocation transaction ends. -/
inductive AllocationOutcome where
  | ok
  | failed
  /-- committed, and the reply lost -/
  | replyLost

/-- The steps of the instance `i`, those of a call with the thread `t`. -/
inductive GeneratorAction where
  | call (i t : ℕ)
  | readCurrent (i t : ℕ)
  | draw (i t : ℕ)
  | test (i t : ℕ) (rejected : Bool)
  | refill (i t : ℕ) (rejected : Bool)
  | refillAllocate (i t : ℕ) (outcome : AllocationOutcome) (rejected : Bool)
  | prefetchAllocate (i : ℕ) (outcome : AllocationOutcome)
  | prefetchPublish (i : ℕ)
  | prefetchFinish (i : ℕ)
  | crash (i : ℕ)

/-- One instance changes. -/
def World.set (w : World) (i : ℕ) (x : Instance) : World :=
  { w with instances := Function.update w.instances i x }

/-- One thread of the instance goes on. -/
def Instance.setThread (x : Instance) (t : ℕ) (s : ThreadState) : Instance :=
  { x with threads := Function.update x.threads t s }

/-- `prefetch`; `true` when the executor throws, which leaves the flag set. -/
def Instance.prefetch (x : Instance) (rejected : Bool) : Instance × Bool :=
  if x.next.isSome ∨ x.prefetching = true then (x, false)
  else if rejected then ({ x with prefetching := true }, true)
  else ({ x with prefetching := true, task := .queued }, false)

/-- `allocateRange` on instance `i`: the new state, and the range unless it throws. -/
def allocateRange (cfg : ℕ → GeneratorConfig) (i : ℕ) (outcome : AllocationOutcome) (w : World) :
    World × Option ℕ :=
  match outcome with
  | .failed => (w, none)
  | .ok =>
    match allocate (cfg i).step w.segment with
    | none => (w, none)
    | some (bounds, row) =>
      ({ w with
        segment := some row
        ranges := w.ranges ++ [⟨i, bounds.1, bounds.2, bounds.1, false⟩] }, some w.ranges.length)
  | .replyLost =>
    match allocate (cfg i).step w.segment with
    | none => (w, none)
    | some (_, row) => ({ w with segment := some row }, none)

/-- `range.next.get() < range.endExclusive` for the current range. -/
def hasIds (w : World) (current : Option ℕ) : Bool :=
  match current with
  | none => false
  | some r =>
    match w.ranges[r]? with
    | none => false
    | some range => decide (range.next < range.endExclusive)

/-- One atomic step of the code; `none` where it is not the thread's or the task's next one. -/
def generatorStep (cfg : ℕ → GeneratorConfig) (w : World) (a : GeneratorAction) : Option World :=
  match a with
  | .call i t =>
    let x := w.instances i
    match x.alive, x.threads t with
    | true, .idle => some (w.set i (x.setThread t .loop))
    | _, _ => none
  | .readCurrent i t =>
    let x := w.instances i
    match x.alive, x.threads t with
    | true, .loop =>
      match x.current with
      | none => some (w.set i (x.setThread t .refill))
      | some r => some (w.set i (x.setThread t (.hasRange r)))
    | _, _ => none
  | .draw i t =>
    let x := w.instances i
    match x.alive, x.threads t with
    | true, .hasRange r =>
      match w.ranges[r]? with
      | none => none
      | some range =>
        some { (w.set i (x.setThread t (.drew r range.next))) with
          ranges := w.ranges.set r range.increment }
    | _, _ => none
  | .test i t rejected =>
    let x := w.instances i
    match x.alive, x.threads t with
    | true, .drew r id =>
      match w.ranges[r]? with
      | none => none
      | some range =>
        if id < range.endExclusive then
          let prefetched :=
            if range.endExclusive - id ≤ (cfg i).prefetchThreshold.toInt64 then
              x.prefetch rejected
            else (x, false)
          let done := w.set i (prefetched.1.setThread t .idle)
          if prefetched.2 then some done
          else some { done with returned := w.returned ++ [⟨i, r, id⟩] }
        else some (w.set i (x.setThread t .refill))
    | _, _ => none
  | .refill i t rejected =>
    let x := w.instances i
    match x.alive, x.threads t, x.monitor with
    | true, .refill, none =>
      if hasIds w x.current then some (w.set i (x.setThread t .loop))
      else
        match x.next with
        | some r =>
          let prefetched := ({ x with current := some r, next := none }).prefetch rejected
          some (w.set i (prefetched.1.setThread t (if prefetched.2 then .idle else .loop)))
        | none => some (w.set i ({ x with monitor := some t }.setThread t .allocating))
    | _, _, _ => none
  | .refillAllocate i t outcome rejected =>
    let x := w.instances i
    match x.alive, x.threads t with
    | true, .allocating =>
      let free := { x with monitor := none }
      match allocateRange cfg i outcome w with
      | (w', none) => some (w'.set i (free.setThread t .idle))
      | (w', some r) =>
        let prefetched := { free with current := some r }.prefetch rejected
        some (w'.set i (prefetched.1.setThread t (if prefetched.2 then .idle else .loop)))
    | _, _ => none
  | .prefetchAllocate i outcome =>
    let x := w.instances i
    match x.alive, x.task with
    | true, .queued =>
      match allocateRange cfg i outcome w with
      | (w', none) => some (w'.set i { x with task := .finishing })
      | (w', some r) => some (w'.set i { x with task := .allocated r })
    | _, _ => none
  | .prefetchPublish i =>
    let x := w.instances i
    match x.alive, x.task, x.monitor with
    | true, .allocated r, none =>
      some (w.set i { x with
        next := if x.next.isSome then x.next else some r
        task := .finishing })
    | _, _, _ => none
  | .prefetchFinish i =>
    let x := w.instances i
    match x.alive, x.task with
    | true, .finishing => some (w.set i { x with prefetching := false, task := .none })
    | _, _ => none
  | .crash i => some (w.set i { w.instances i with alive := false })

end Hmdp.Model
