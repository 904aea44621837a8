import Hmdp.IdSegment.RedisIds
import Hmdp.Lib.Supply
import Hmdp.Pipeline.Sale

/-!
# The pipeline with its id generators

`seckillVoucher` takes an id of `orderIdGenerator.nextId` and then runs `seckill.lua` with it. The
machine of the pipeline takes the order ids as given and lets a call run only with an id that has
not been used. Here the ids come from the generators: any number of instances, each in either of
the two modes (`hmdp.seckill.order-id.mode`), all of them beside the pipeline; a call may be slow
or never run its script, and no script looks whether an id was used before (`scriptStep`).

* `idsNoneTwice`: the generators of both modes together hand out no id twice.
* **`generated_refines_sale`**: what the callers see is still a run of the sale.
-/

namespace Hmdp.Pipeline

open Hmdp.Lib Hmdp.Model Hmdp.IdSegment

/-- The generators of both modes. -/
abbrev Generators := World × RedisIdWorker.State

/-- One step of either generator. -/
def generatorsStep (cfg : ℕ → GeneratorConfig) :
    Generators → GeneratorAction ⊕ RedisIdWorker.Action → Option Generators :=
  besideStep (generatorStep cfg) RedisIdWorker.step

/-- The order ids handed out; the other prefixes are not for orders. -/
def orderIds (g : Generators) : Multiset OrderId :=
  ↑(g.1.returned.map Issued.id) +
    ↑((g.2.returned.filter fun r => decide (r.keyPrefix = "order".toList)).map
      RedisIdWorker.Returned.id)

/-- The id a call takes. -/
def orderIdOf : Action → Option OrderId
  | .seckill call => some call.orderId
  | _ => none

/-- A step of the pipeline; the script runs with whatever id it gets. -/
def scriptStep (rejects : Reservation → Bool) (s : State) : Action → Option State
  | .seckill call =>
    let reply := seckillLua call s.redis
    some { s with
      redis := reply.2
      issued := insert call.orderId s.issued
      granted := if reply.1 = 0 then call.reservation :: s.granted else s.granted }
  | a => step rejects s a

/-- The server: the generators, the pipeline, and the ids of calls that have not run their
script. -/
abbrev Server := Supplied Generators State OrderId

/-- One step of the pipeline, its order ids drawn from the generators. -/
def serverStep (cfg : ℕ → GeneratorConfig) (rejects : Reservation → Bool) :
    Server → (GeneratorAction ⊕ RedisIdWorker.Action) ⊕ Action → Option Server :=
  suppliedStep (generatorsStep cfg) orderIds (scriptStep rejects) orderIdOf

/-- No segment counter wraps, the clocks show times of their range, and counts have 32 bits. -/
def IdsInRange : Generators → GeneratorAction ⊕ RedisIdWorker.Action → Prop :=
  BesideCondition (fun w a => noWrap w a = true) Ordinary

instance (g : Generators) (a : GeneratorAction ⊕ RedisIdWorker.Action) :
    Decidable (IdsInRange g a) :=
  match a with
  | .inl a => inferInstanceAs (Decidable (noWrap g.1 a = true))
  | .inr a => inferInstanceAs (Decidable (Ordinary g.2 a))

/-- The server starts with the row of the migration, the counters of Redis as found, and no
call. -/
def Server.start (rowStep : Int32) (counters : Text → Option Long) (s : State) : Server :=
  ⟨(World.initial (some ⟨4611686018427387904, rowStep⟩), RedisIdWorker.initial counters), s, 0⟩

variable {cfg : ℕ → GeneratorConfig} {rejects : Reservation → Bool} {s t : State}

/-! ## The ids -/

theorem above_initial (rowStep : Int32) :
    Above 4611686018427387904 (World.initial (some ⟨4611686018427387904, rowStep⟩)) where
  row row' h := by
    cases h
    show (4611686018427387904 : ℤ) ≤ (4611686018427387904 : Long).toInt
    decide
  ranges range h := by cases h

/-- The invariants of both generators; the segments lie above the ids of `RedisIdWorker`. -/
def Generators.Sound (g : Generators) : Prop :=
  (Unique g.1 ∧ Above 4611686018427387904 g.1) ∧ Counted g.2

theorem sound_step :
    Preserves (generatorsStep cfg) IdsInRange Generators.Sound := by
  have hsegments : Preserves (generatorStep cfg) (fun w a => noWrap w a = true)
      fun w => Unique w ∧ Above 4611686018427387904 w :=
    fun _ _ _ ha hw hstep => ⟨unique_step ha hw.1 hstep, above_step hw.2 hstep⟩
  exact beside_preserves hsegments counted_step

/-- A count that has passed its bounds gives an id below the segments. -/
theorem redisId_lt {r : RedisIdWorker.State} (hr : Counted r) {x : RedisIdWorker.Returned}
    (hx : x ∈ r.returned) : x.id.toInt < 4611686018427387904 := by
  have hsound := hr.sound x hx
  have hlate := hsound.inTime.2
  have hshort := hsound.short
  rw [hsound.id_toInt]
  omega

theorem segmentId_ge {w : World} (hu : Unique w) (ha : Above 4611686018427387904 w) {x : Issued}
    (hx : x ∈ w.returned) : 4611686018427387904 ≤ x.id.toInt := by
  obtain ⟨range, hrange, -, hstart, -⟩ := hu.idsUnique.inRange x hx
  have hlow := ha.ranges range hrange
  have hle := Int64.le_iff_toInt_le.mp hstart
  omega

theorem nodup_orderIds (g : Generators) (hg : g.Sound) : (orderIds g).Nodup := by
  obtain ⟨⟨hu, ha⟩, hc⟩ := hg
  refine Multiset.nodup_add.mpr ⟨?_, ?_, ?_⟩
  · exact Multiset.coe_nodup.mpr hu.idsUnique.nodup
  · exact Multiset.coe_nodup.mpr (hc.ids_nodup _)
  · refine Multiset.disjoint_left.mpr fun {id} h₁ h₂ => ?_
    rw [Multiset.mem_coe, List.mem_map] at h₁ h₂
    obtain ⟨x, hx, rfl⟩ := h₁
    obtain ⟨y, hy, hid⟩ := h₂
    have hhigh := segmentId_ge hu ha hx
    have hlow := redisId_lt hc (List.mem_filter.mp hy).1
    rw [hid] at hlow
    omega

/-- An allocation returns no id. -/
theorem returned_allocateRange {i : ℕ} {outcome : AllocationOutcome} {w w₁ : World} {o : Option ℕ}
    (h : allocateRange cfg i outcome w = (w₁, o)) : w.returned <+: w₁.returned := by
  unfold allocateRange at h
  repeat' split at h
  all_goals
    cases h
    exact List.prefix_rfl

/-- A step of the segment generator takes no id back. -/
theorem returned_generatorStep {w w' : World} {a : GeneratorAction}
    (hstep : generatorStep cfg w a = some w') : w.returned <+: w'.returned := by
  cases a with
  | refillAllocate i t outcome rejected =>
    simp only [generatorStep] at hstep
    split at hstep
    · split at hstep
      · rename_i w₁ halloc
        cases hstep
        have hprefix := returned_allocateRange halloc
        exact hprefix
      · rename_i w₁ r halloc
        cases hstep
        have hprefix := returned_allocateRange halloc
        exact hprefix
    · cases hstep
  | prefetchAllocate i outcome =>
    simp only [generatorStep] at hstep
    split at hstep
    · split at hstep
      · rename_i w₁ halloc
        cases hstep
        have hprefix := returned_allocateRange halloc
        exact hprefix
      · rename_i w₁ r halloc
        cases hstep
        have hprefix := returned_allocateRange halloc
        exact hprefix
    · cases hstep
  | test i t rejected =>
    -- the one step that returns an id
    simp only [generatorStep] at hstep
    repeat' split at hstep
    all_goals first
      | cases hstep; exact List.prefix_rfl
      | cases hstep; exact List.prefix_append ..
      | cases hstep
  | _ =>
    simp only [generatorStep] at hstep
    repeat' split at hstep
    all_goals first
      | cases hstep; exact List.prefix_rfl
      | cases hstep

theorem returned_redisStep {r r' : RedisIdWorker.State} {a : RedisIdWorker.Action}
    (hstep : RedisIdWorker.step r a = some r') : r.returned <+: r'.returned := by
  cases a with
  | readClock i keyPrefix nowSecond =>
    simp only [RedisIdWorker.step] at hstep
    split at hstep
    · cases hstep
    · cases hstep
      exact List.prefix_rfl
  | increment i =>
    simp only [RedisIdWorker.step] at hstep
    split at hstep
    · cases hstep
    · split at hstep
      · cases hstep
        exact List.prefix_rfl
      · cases hstep
        exact List.prefix_append ..

theorem orderIds_grows {g g' : Generators} {a : GeneratorAction ⊕ RedisIdWorker.Action}
    (hstep : generatorsStep cfg g a = some g') : orderIds g ≤ orderIds g' := by
  cases a with
  | inl a =>
    obtain ⟨w, hw, rfl⟩ := Option.map_eq_some_iff.mp hstep
    refine Multiset.add_le_add_iff_right.mpr ?_
    exact ((returned_generatorStep hw).map Issued.id).sublist.subperm
  | inr a =>
    obtain ⟨r, hr, rfl⟩ := Option.map_eq_some_iff.mp hstep
    refine Multiset.add_le_add_iff_left.mpr ?_
    exact (((returned_redisStep hr).filter _).map _).sublist.subperm

/-- **No id twice**, whichever instances are in which mode. -/
theorem idsNoneTwice : NoneTwice (generatorsStep cfg) orderIds IdsInRange Generators.Sound where
  keeps := sound_step
  nodup := nodup_orderIds
  grows _ _ _ := orderIds_grows

/-! ## The pipeline beside them -/

/-- With a fresh id, the script's step is that of the pipeline. -/
theorem usesNames : UsesNames (scriptStep rejects) orderIdOf (step rejects) State.issued where
  used_none s a t hstep ha := by
    have hcall : ∀ c, a ≠ .seckill c := by
      rintro c rfl
      cases ha
    have hstep' : step rejects s a = some t := by
      cases a with
      | seckill c => exact absurd rfl (hcall c)
      | _ => exact hstep
    rcases step_issued hstep' with ⟨c, rfl, -, -⟩ | ⟨-, hissued⟩
    · exact absurd rfl (hcall c)
    · exact hissued
  used_some s a t i hstep ha := by
    cases a with
    | seckill c =>
      cases ha
      cases hstep
      rfl
    | _ => cases ha
  guard s a hfresh := by
    cases a with
    | seckill c =>
      simp only [step, if_neg (hfresh c.orderId rfl)]
      rfl
    | _ => rfl

theorem fresh_start (rowStep : Int32) (counters : Text → Option Long) (hs : s.issued = ∅) :
    Fresh orderIds Generators.Sound State.issued (Server.start rowStep counters s) := by
  refine ⟨⟨⟨unique_initial _, above_initial rowStep⟩, counted_initial counters⟩, ?_⟩
  show 0 + s.issued.val ≤ _
  rw [hs]
  exact Multiset.zero_le _

/-- **The pipeline refines the sale with ids of its own generators.** From a start where nobody
has bought and MySQL has the stocks that Redis has, and whatever the generators of both modes and
the calls do in between: what the callers see in a run of the server is a run of the sale, which
sells no unit twice, no more than there were and nobody two; and at its end the stores together say
exactly what was sold to whom and what is left. -/
theorem generated_refines_sale (cfg : ℕ → GeneratorConfig) (rejects : Reservation → Bool)
    (rowStep : Int32) (counters : Text → Option Long)
    {as : List ((GeneratorAction ⊕ RedisIdWorker.Action) ⊕ Action)} {server : Server}
    (hstart : Start s) (hissued : s.issued = ∅) (hbuyers : ∀ v, s.redis.purchased v = ∅)
    (hstock : ∀ v n, s.redis.stock v = some n → s.db.stock v = some n ∧ 0 ≤ n)
    (hids : Along (serverStep cfg rejects) (SupplyCondition IdsInRange)
      (Server.start rowStep counters s) as)
    (hrun : run (serverStep cfg rejects) (Server.start rowStep counters s) as = some server) :
    ∃ x, run Sale.step (Sale.opening s.redis.stock ∅)
        (trace (step rejects) shows s (as.filterMap Sum.getRight?)) = some x ∧
      x.Sound s.redis.stock ∧ Shown server.user x := by
  obtain ⟨hpipeline, -⟩ :=
    supplied_run idsNoneTwice usesNames (fresh_start rowStep counters hissued) hids hrun
  obtain ⟨x, hx, hpresents⟩ :=
    simulates_run (simulates_sale rejects) (hstart.presents hbuyers hstock) hpipeline
  rw [hissued] at hx
  exact ⟨x, hx, Sale.sound_run hx, hpresents.shown⟩

/-- A server in the segment mode and one in the mode `redis`, one call each. -/
def twoModes : List ((GeneratorAction ⊕ RedisIdWorker.Action) ⊕ Action) :=
  firstCall.map (fun a => .inl (.inl a)) ++
    [.inl (.inr (.readClock 0 "order".toList 1641052800)), .inl (.inr (.increment 0)),
      .inr (buy 247390116249601 5), .inr (buy 4611686018427387904 6)]

theorem generated_refines_sale_two_modes :
    ∃ server, run (serverStep hundredEach fun _ => false)
        (Server.start 10000 (fun _ => none) (onSale 1)) twoModes = some server ∧
      server.user.granted.map Reservation.orderId = [247390116249601] ∧
      ∃ x, run Sale.step (Sale.opening (onSale 1).redis.stock ∅)
          (trace (step fun _ => false) shows (onSale 1) (twoModes.filterMap Sum.getRight?)) =
            some x ∧ x.Sound (onSale 1).redis.stock ∧ Shown server.user x := by
  obtain ⟨server, hserver, hgranted⟩ := Option.map_eq_some_iff.mp
    (show (run (serverStep hundredEach fun _ => false)
        (Server.start 10000 (fun _ => none) (onSale 1)) twoModes).map
      (fun server => server.user.granted.map Reservation.orderId) = some [247390116249601] by
        decide +kernel)
  refine ⟨server, hserver, hgranted, ?_⟩
  exact generated_refines_sale hundredEach (fun _ => false) 10000 (fun _ => none) (start_onSale 1)
    rfl (fun _ => rfl) (stock_onSale (by omega)) (by decide +kernel) hserver

end Hmdp.Pipeline
