import Hmdp.Lib.Machine
import Hmdp.Model.GeoIndex

/-!
# The geo index equals the shop table

Any number of shops are saved and updated, one transaction a shop at a time, and any number of
workers rebuild the index, all beside each other. A transaction runs its Redis commands before its
commit, and may roll back at any time.

An entry of the index, for a type and a shop, is what its last writer made it. As long as somebody
is still to write it (`Pending`) nothing is said; otherwise it is what the shop's transaction in
flight, or else its committed row, says (`Settled`).

* **`settled_step`**: a step keeps the index settled exactly if it meets the condition `Holds`.
* **`geo_index_iff`**: the same for whole runs; with nothing in flight the index is the table's.
-/

namespace Hmdp.Geo

open Hmdp.Lib Hmdp.Model

/-! ## The steps -/

/-- The table, the index, and the transactions and rebuilds under way. -/
structure State (Worker Double : Type) where
  rows : ShopRows Double
  geo : GeoIndex Double
  /-- the transaction that has the shop's WRITE lock, or saves it -/
  writes : ShopId → Option (ShopWrite Double)
  rebuilds : Worker → Option (GeoRebuild Double)

/-- The statements of a save, an update and a rebuild, in any order between them. -/
inductive Action (Worker Double : Type) where
  /-- `id` is the next of the column, in no row and no other transaction -/
  | save (id : ShopId) (shop : GeoShop Double)
  | update (id : ShopId) (shop : GeoShop Double)
  | sync (id : ShopId)
  | commit (id : ShopId)
  | rollback (id : ShopId)
  | start (w : Worker)
  | rebuild (w : Worker) (order : List ShopTypeId)

variable {Worker Double : Type} [DecidableEq Worker]

/-- Workers may be starting, with the index as it was left. -/
def State.init (rows : ShopRows Double) (geo : GeoIndex Double) (starting : Worker → Bool) :
    State Worker Double :=
  ⟨rows, geo, fun _ => none, fun w => if starting w then some .list else none⟩

/-- The shop's transaction, replaced. -/
def State.setWrite (s : State Worker Double) (id : ShopId) (write : Option (ShopWrite Double)) :
    State Worker Double :=
  { s with writes := Function.update s.writes id write }

/-- The worker's rebuild, replaced. -/
def State.setRebuild (s : State Worker Double) (w : Worker) (rebuild : Option (GeoRebuild Double)) :
    State Worker Double :=
  { s with rebuilds := Function.update s.rebuilds w rebuild }

/-- One step; `none` where the transaction or the rebuild is not where the action needs it. -/
def step (s : State Worker Double) : Action Worker Double → Option (State Worker Double)
  | .save id shop =>
    match s.rows.lookup id, s.writes id with
    | none, none => some (s.setWrite id (some ⟨none, shop, .add⟩))
    | _, _ => none
  | .update id shop =>
    match s.rows.lookup id, s.writes id with
    | some oldShop, none => some (s.setWrite id (some ⟨some oldShop, oldShop.patch shop, .remove⟩))
    | _, _ => none
  | .sync id =>
    (s.writes id).bind fun write =>
      (s.geo.sync id write).map fun r => { s with geo := r.1 }.setWrite id (some r.2)
  | .commit id =>
    match s.writes id with
    | some ⟨_, newShop, .finish⟩ =>
      some ({ s with rows := s.rows.insert id newShop }.setWrite id none)
    | _ => none
  | .rollback id => (s.writes id).map fun _ => s.setWrite id none
  | .start w => if (s.rebuilds w).isNone then some (s.setRebuild w (some .list)) else none
  | .rebuild w order =>
    (s.rebuilds w).bind fun rebuild =>
      (s.geo.rebuild s.rows order rebuild).map fun r => { s with geo := r.1 }.setRebuild w r.2

/-! ## Entries of the index -/

/-- The position of a row, if there is one, in the set of a type. -/
def rowPosition (row : Option (GeoShop Double)) (typeId : ShopTypeId) : Option (Double × Double) :=
  row.bind fun shop => shop.position typeId

/-- The index has exactly the committed shops with both coordinates, in the set of their type and at
their position. -/
def Indexed (rows : ShopRows Double) (geo : GeoIndex Double) : Prop :=
  ∀ typeId id point, (geo typeId).lookup id = some point ↔
    ∃ shop, rows.lookup id = some shop ∧ shop.typeId = some typeId ∧ shop.x = some point.1 ∧
      shop.y = some point.2

/-- What the entry is to be: the position of the row that is being written, or else committed. -/
def target (typeId : ShopTypeId) (id : ShopId) (s : State Worker Double) :
    Option (Double × Double) :=
  match s.writes id with
  | some write => write.newShop.position typeId
  | none => rowPosition (s.rows.lookup id) typeId

/-- The transaction is still to write its entry in the type's set. -/
def WritesType (typeId : ShopTypeId) (write : ShopWrite Double) : Prop :=
  write.phase = .remove ∧ write.oldShop.bind GeoShop.typeId = some typeId ∨
    write.phase ≠ .finish ∧ ∃ point, write.newShop.location = some (typeId, point)

/-- The rebuild is still to replace or to delete the type's set, or to find it deleted. -/
def RewritesType (typeId : ShopTypeId) : GeoRebuild Double → Prop
  | .list => True
  | .rename _ _ activeKeys => typeId ∉ activeKeys
  | .delete staleKeys => staleKeys typeId = true

/-- Some rebuild is still to write the type's set. -/
def Rebuilding (typeId : ShopTypeId) (s : State Worker Double) : Prop :=
  ∃ w, ∃ rebuild, s.rebuilds w = some rebuild ∧ RewritesType typeId rebuild

/-- The shop's transaction is still to write its entry. -/
def Writing (typeId : ShopTypeId) (id : ShopId) (s : State Worker Double) : Prop :=
  ∃ write, s.writes id = some write ∧ WritesType typeId write

/-- Somebody is still to write the entry. -/
def Pending (typeId : ShopTypeId) (id : ShopId) (s : State Worker Double) : Prop :=
  Writing typeId id s ∨ Rebuilding typeId s

/-- Somebody other than the worker is. -/
def PendingElse (w : Worker) (typeId : ShopTypeId) (id : ShopId) (s : State Worker Double) : Prop :=
  Writing typeId id s ∨
    ∃ other, other ≠ w ∧ ∃ rebuild, s.rebuilds other = some rebuild ∧ RewritesType typeId rebuild

/-- The entries nobody is still to write are what they are to be. -/
def Settled (s : State Worker Double) : Prop :=
  ∀ typeId id, ¬ Pending typeId id s → (s.geo typeId).lookup id = target typeId id s

/-- **The condition on a step.** For each shop whose entry nobody else is still to write: a rebuild
that replaces the set of a type has read the position the shop is to have there; one that deletes
the set, or finds no set to delete, finds that the shop is to have no position there; and a rollback
leaves the entry the committed row has. -/
def Holds (s : State Worker Double) : Action Worker Double → Prop
  | .rebuild w _ =>
    match s.rebuilds w with
    | some (.rename snapshot (typeId :: _) _) => ∀ id, ¬ PendingElse w typeId id s →
        rowPosition (snapshot.lookup id) typeId = target typeId id s
    | some (.rename _ [] activeKeys) => ∀ typeId id, typeId ∉ activeKeys →
        s.geo.staleKeys activeKeys typeId = false → ¬ PendingElse w typeId id s →
          (s.geo typeId).lookup id = target typeId id s
    | some (.delete staleKeys) => ∀ typeId id, staleKeys typeId = true →
        ¬ PendingElse w typeId id s → target typeId id s = none
    | _ => True
  | .rollback id => ∀ typeId, ¬ Rebuilding typeId s →
      (s.geo typeId).lookup id = rowPosition (s.rows.lookup id) typeId
  | _ => True

section Frame

variable {s : State Worker Double} {typeId : ShopTypeId} {id other : ShopId} {w : Worker}

omit [DecidableEq Worker] in
/-- The transaction of another shop. -/
theorem target_setWrite_ne (write : Option (ShopWrite Double)) (hne : other ≠ id) :
    target typeId other (s.setWrite id write) = target typeId other s := by
  simp only [target, State.setWrite, Function.update_of_ne hne]

omit [DecidableEq Worker] in
theorem pending_setWrite_ne (write : Option (ShopWrite Double)) (hne : other ≠ id) :
    Pending typeId other (s.setWrite id write) ↔ Pending typeId other s := by
  simp only [Pending, Writing, Rebuilding, State.setWrite, Function.update_of_ne hne]

omit [DecidableEq Worker] in
theorem pending_setWrite (write : Option (ShopWrite Double)) :
    Pending typeId id (s.setWrite id write) ↔
      (∃ w, write = some w ∧ WritesType typeId w) ∨ Rebuilding typeId s := by
  simp only [Pending, Writing, Rebuilding, State.setWrite, Function.update_self]

omit [DecidableEq Worker] in
theorem target_setWrite (write : ShopWrite Double) :
    target typeId id (s.setWrite id (some write)) = write.newShop.position typeId := by
  simp only [target, State.setWrite, Function.update_self]

/-- A transaction with commands to come, none of which is for the type. -/
theorem position_of_not_writesType {write : ShopWrite Double} (hphase : write.phase ≠ .finish)
    (hnot : ¬ WritesType typeId write) : write.newShop.position typeId = none :=
  GeoShop.position_eq_none fun location hlocation htype =>
    hnot (Or.inr ⟨hphase, location.2, by rw [hlocation, ← htype]⟩)

theorem pending_setRebuild (rebuild : Option (GeoRebuild Double)) :
    Pending typeId id (s.setRebuild w rebuild) ↔
      PendingElse w typeId id s ∨ ∃ r, rebuild = some r ∧ RewritesType typeId r := by
  have hexists := Function.exists_update_iff s.rebuilds (a := w) (b := rebuild) fun _ rebuild =>
    ∃ r, rebuild = some r ∧ RewritesType typeId r
  simp only [Pending, Writing, Rebuilding, PendingElse, State.setRebuild] at hexists ⊢
  rw [hexists, or_assoc]
  exact or_congr Iff.rfl or_comm

end Frame

section Step

variable {s t : State Worker Double} {typeId : ShopTypeId} {id : ShopId} {w : Worker}

omit [DecidableEq Worker] in
/-- A step of one shop's transaction, which leaves the entries of the others. -/
theorem settled_setWrite {geo : GeoIndex Double} {write : Option (ShopWrite Double)}
    (hs : Settled s)
    (hother : ∀ typeId other, other ≠ id → (geo typeId).lookup other = (s.geo typeId).lookup other)
    (hself : ∀ typeId, ¬ Pending typeId id (s.setWrite id write) →
      (geo typeId).lookup id = target typeId id (s.setWrite id write)) :
    Settled ({ s with geo }.setWrite id write) := by
  intro typeId other hpending
  by_cases hid : other = id
  · subst hid
    exact hself typeId hpending
  · have hbefore := hs typeId other fun h => hpending ((pending_setWrite_ne write hid).mpr h)
    exact (hother typeId other hid).trans (hbefore.trans (target_setWrite_ne write hid).symm)

omit [DecidableEq Worker] in
/-- A transaction begins: it is to write where the entry changes. -/
theorem settled_begin {write : ShopWrite Double} (hs : Settled s) (hfree : s.writes id = none)
    (hold : write.oldShop = s.rows.lookup id)
    (hphase : write.phase = .remove ∨ write.phase = .add ∧ write.oldShop = none) :
    Settled (s.setWrite id (some write)) := by
  refine settled_setWrite hs (fun _ _ _ => rfl) fun typeId hpending => ?_
  rw [pending_setWrite, not_or] at hpending
  obtain ⟨hwrites, hrebuilding⟩ := hpending
  have hbefore := hs typeId id fun h => h.elim (fun ⟨write', hwrite', _⟩ => by
    rw [hfree] at hwrite'
    cases hwrite') hrebuilding
  have hnot : ¬ WritesType typeId write := fun h => hwrites ⟨write, rfl, h⟩
  have hnew : write.newShop.position typeId = none := by
    refine position_of_not_writesType ?_ hnot
    obtain hphase | ⟨hphase, -⟩ := hphase <;> rw [hphase] <;> simp
  have hnone : rowPosition (s.rows.lookup id) typeId = none := by
    rw [← hold]
    obtain hphase | ⟨-, hnone⟩ := hphase
    · cases holdShop : write.oldShop with
      | none => rfl
      | some oldShop =>
        refine GeoShop.position_eq_none fun location hlocation htype => hnot (Or.inl ⟨hphase, ?_⟩)
        rw [holdShop, Option.bind_some, GeoShop.typeId_of_location hlocation, htype]
    · rw [hnone]
      rfl
  rw [target_setWrite, hnew, hbefore, target, hfree]
  exact hnone

omit [DecidableEq Worker] in
/-- A Redis command of a transaction: an entry that it has not to write any more is right, or was
not to be written before and is as it was. -/
theorem settled_command {geo : GeoIndex Double} {write next : ShopWrite Double} (hs : Settled s)
    (hwrite : s.writes id = some write) (hshop : next.newShop = write.newShop)
    (hother : ∀ typeId other, other ≠ id → (geo typeId).lookup other = (s.geo typeId).lookup other)
    (hself : ∀ typeId, ¬ WritesType typeId next →
      (geo typeId).lookup id = next.newShop.position typeId ∨
        ¬ WritesType typeId write ∧ (geo typeId).lookup id = (s.geo typeId).lookup id) :
    Settled ({ s with geo }.setWrite id (some next)) := by
  refine settled_setWrite hs hother fun typeId hpending => ?_
  rw [pending_setWrite, not_or] at hpending
  obtain ⟨hwrites, hrebuilding⟩ := hpending
  rw [target_setWrite]
  obtain hright | ⟨hnot, hsame⟩ := hself typeId fun h => hwrites ⟨next, rfl, h⟩
  · exact hright
  · have hbefore := hs typeId id fun h => h.elim (fun ⟨write', hwrite', h⟩ => hnot (by
      cases hwrite.symm.trans hwrite'
      exact h)) hrebuilding
    rw [target, hwrite] at hbefore
    rw [hsame, hbefore, hshop]

omit [DecidableEq Worker] in
/-- The commands of `syncGeoIndex`. -/
theorem settled_sync {write : ShopWrite Double} {r : GeoIndex Double × ShopWrite Double}
    (hs : Settled s) (hwrite : s.writes id = some write) (hsync : s.geo.sync id write = some r) :
    Settled ({ s with geo := r.1 }.setWrite id (some r.2)) := by
  obtain ⟨oldShop, newShop, phase⟩ := write
  unfold GeoIndex.sync at hsync
  cases phase with
  | remove =>
    simp only at hsync
    split at hsync
    · rename_i oldType hold
      cases hsync
      refine settled_command hs hwrite rfl (fun typeId other hne => ?_) fun typeId hnot => ?_
      · rw [GeoIndex.lookup_remove, if_neg fun h => hne h.2]
      · rw [GeoIndex.lookup_remove]
        by_cases htype : typeId = oldType
        · rw [if_pos ⟨htype, rfl⟩]
          exact Or.inl (position_of_not_writesType (by simp) hnot).symm
        · rw [if_neg fun h => htype h.1]
          refine Or.inr ⟨fun hwrites => ?_, rfl⟩
          obtain ⟨-, heq⟩ | ⟨-, hpoint⟩ := hwrites
          · rw [hold] at heq
            exact htype (Option.some.inj heq).symm
          · exact hnot (Or.inr ⟨by simp, hpoint⟩)
    · rename_i hold
      cases hsync
      refine settled_command hs hwrite rfl (fun _ _ _ => rfl) fun typeId hnot =>
        Or.inr ⟨fun hwrites => ?_, rfl⟩
      obtain ⟨-, heq⟩ | ⟨-, hpoint⟩ := hwrites
      · rw [hold] at heq
        cases heq
      · exact hnot (Or.inr ⟨by simp, hpoint⟩)
  | add =>
    simp only at hsync
    split at hsync
    · rename_i newType point hlocation
      cases hsync
      refine settled_command hs hwrite rfl (fun typeId other hne => ?_) fun typeId hnot => ?_
      · rw [GeoIndex.lookup_add, if_neg fun h => hne h.2]
      · rw [GeoIndex.lookup_add]
        by_cases htype : typeId = newType
        · rw [if_pos ⟨htype, rfl⟩, htype]
          exact Or.inl (GeoShop.position_eq_some.mpr hlocation).symm
        · rw [if_neg fun h => htype h.1]
          refine Or.inr ⟨fun hwrites => ?_, rfl⟩
          obtain ⟨hphase, -⟩ | ⟨-, point', hlocation'⟩ := hwrites
          · cases hphase
          · cases hlocation.symm.trans hlocation'
            exact htype rfl
    · rename_i hlocation
      cases hsync
      refine settled_command hs hwrite rfl (fun _ _ _ => rfl) fun typeId _ =>
        Or.inr ⟨fun hwrites => ?_, rfl⟩
      obtain ⟨hphase, -⟩ | ⟨-, point, hpoint⟩ := hwrites
      · cases hphase
      · cases hlocation.symm.trans hpoint
  | finish => cases hsync

omit [DecidableEq Worker] in
/-- A commit changes no entry, and what the shop's entries are to be stays what it was. -/
theorem settled_commit {oldShop : Option (GeoShop Double)} {newShop : GeoShop Double}
    (hs : Settled s) (hwrite : s.writes id = some ⟨oldShop, newShop, .finish⟩) :
    Settled ({ s with rows := s.rows.insert id newShop }.setWrite id none) := by
  intro typeId other hpending
  by_cases hid : other = id
  · subst hid
    have hbefore := hs typeId other fun h => h.elim (fun ⟨write, hwrite', hwrites⟩ => by
      cases hwrite.symm.trans hwrite'
      obtain ⟨hphase, -⟩ | ⟨hphase, -⟩ := hwrites
      · cases hphase
      · exact hphase rfl) fun h => hpending (Or.inr h)
    rw [target, hwrite] at hbefore
    refine hbefore.trans ?_
    simp [target, State.setWrite, rowPosition]
  · have hbefore := hs typeId other fun h => hpending ((pending_setWrite_ne none hid).mpr h)
    refine hbefore.trans ?_
    simp only [target, State.setWrite, Function.update_of_ne hid, AList.lookup_insert_ne hid]

omit [DecidableEq Worker] in
/-- A rollback leaves the entries as they are. -/
theorem settled_rollback (hs : Settled s) :
    Settled (s.setWrite id none) ↔ Holds s (.rollback id : Action Worker Double) := by
  have htarget : ∀ typeId, target typeId id (s.setWrite id none) =
      rowPosition (s.rows.lookup id) typeId := fun typeId => by
    simp only [target, State.setWrite, Function.update_self]
  have hpending : ∀ typeId, Pending typeId id (s.setWrite id none) ↔ Rebuilding typeId s :=
    fun typeId => by simp [pending_setWrite]
  constructor
  · intro h typeId hrebuilding
    exact (h typeId id (mt (hpending typeId).mp hrebuilding)).trans (htarget typeId)
  · intro h
    refine @settled_setWrite _ _ s id s.geo none hs (fun _ _ _ => rfl) fun typeId hnot => ?_
    rw [htarget]
    exact h typeId fun hrebuilding => hnot ((hpending typeId).mpr hrebuilding)

/-- What a step of a rebuild leaves. -/
theorem settled_setRebuild {geo : GeoIndex Double} {rebuild : Option (GeoRebuild Double)} :
    Settled ({ s with geo }.setRebuild w rebuild) ↔ ∀ typeId id, ¬ PendingElse w typeId id s →
      (∀ r, rebuild = some r → ¬ RewritesType typeId r) →
        (geo typeId).lookup id = target typeId id s := by
  refine forall_congr' fun typeId => forall_congr' fun id => ?_
  rw [pending_setRebuild, not_or, and_imp, not_exists]
  simp only [not_and]
  rfl

omit [DecidableEq Worker] in
/-- What it finds, of the entries it is not to write itself. -/
theorem lookup_of_not_rewritesType {rebuild : GeoRebuild Double}
    (hs : Settled s) (hrebuild : s.rebuilds w = some rebuild) (hnot : ¬ PendingElse w typeId id s)
    (hrewrites : ¬ RewritesType typeId rebuild) :
    (s.geo typeId).lookup id = target typeId id s := by
  refine hs typeId id fun h => ?_
  obtain hwriting | ⟨other, rebuild', hother, hrewrites'⟩ := h
  · exact hnot (Or.inl hwriting)
  · by_cases hw : other = w
    · subst hw
      cases hrebuild.symm.trans hother
      exact hrewrites hrewrites'
    · exact hnot (Or.inr ⟨other, hw, rebuild', hother, hrewrites'⟩)

/-- `RENAME`. -/
theorem settled_rename {order : List ShopTypeId} {snapshot : ShopRows Double}
    {renamed : ShopTypeId} {remaining : List ShopTypeId} {activeKeys : Finset ShopTypeId}
    (hs : Settled s)
    (hrebuild : s.rebuilds w = some (.rename snapshot (renamed :: remaining) activeKeys)) :
    Settled ({ s with geo := Function.update s.geo renamed (snapshot.located renamed) }.setRebuild w
      (some (.rename snapshot remaining (insert renamed activeKeys)))) ↔
        Holds s (.rebuild w order) := by
  simp only [settled_setRebuild, Holds, hrebuild]
  constructor
  · intro h id hnot
    have hafter := h renamed id hnot fun r hr => by
      cases hr
      exact not_not_intro (Finset.mem_insert_self renamed activeKeys)
    rwa [Function.update_self, ShopRows.lookup_located] at hafter
  · intro h typeId id hnot hrewrites
    by_cases htype : typeId = renamed
    · subst htype
      rw [Function.update_self, ShopRows.lookup_located]
      exact h id hnot
    · have hactive : typeId ∈ activeKeys := by
        by_contra hactive
        exact hrewrites _ rfl fun hmem => (Finset.mem_insert.mp hmem).elim htype hactive
      rw [Function.update_of_ne htype]
      exact lookup_of_not_rewritesType hs hrebuild hnot (not_not_intro hactive)

/-- `scanGeoKeys`. -/
theorem settled_scan {order : List ShopTypeId} {snapshot : ShopRows Double}
    {activeKeys : Finset ShopTypeId} (hs : Settled s)
    (hrebuild : s.rebuilds w = some (.rename snapshot [] activeKeys)) :
    Settled (s.setRebuild w (some (.delete (s.geo.staleKeys activeKeys)))) ↔
      Holds s (.rebuild w order) := by
  simp only [Holds, hrebuild]
  refine (@settled_setRebuild _ _ _ s w s.geo _).trans ?_
  constructor
  · intro h typeId id _ hstale hnot
    refine h typeId id hnot fun r hr => ?_
    cases hr
    exact fun hrewrites => Bool.false_ne_true (hstale.symm.trans hrewrites)
  · intro h typeId id hnot hrewrites
    by_cases hactive : typeId ∈ activeKeys
    · exact lookup_of_not_rewritesType hs hrebuild hnot (not_not_intro hactive)
    · exact h typeId id hactive (Bool.eq_false_iff.mpr (hrewrites _ rfl)) hnot

/-- `delete` of the stale keys. -/
theorem settled_delete {order : List ShopTypeId} {staleKeys : ShopTypeId → Bool} (hs : Settled s)
    (hrebuild : s.rebuilds w = some (.delete staleKeys)) :
    Settled ({ s with geo := s.geo.delete staleKeys }.setRebuild w none) ↔
      Holds s (.rebuild w order) := by
  simp only [settled_setRebuild, GeoIndex.lookup_delete, Holds, hrebuild]
  constructor
  · intro h typeId id hstale hnot
    have hafter := h typeId id hnot fun _ hr => nomatch hr
    rw [if_pos hstale] at hafter
    exact hafter.symm
  · intro h typeId id hnot _
    split
    · rename_i hstale
      exact (h typeId id hstale hnot).symm
    · rename_i hstale
      exact lookup_of_not_rewritesType hs hrebuild hnot hstale

/-- A step of a rebuild. -/
theorem settled_rebuild {order : List ShopTypeId} {rebuild : GeoRebuild Double}
    {r : GeoIndex Double × Option (GeoRebuild Double)} (hs : Settled s)
    (hrebuild : s.rebuilds w = some rebuild) (hstep : s.geo.rebuild s.rows order rebuild = some r) :
    Settled ({ s with geo := r.1 }.setRebuild w r.2) ↔ Holds s (.rebuild w order) := by
  cases rebuild with
  | list =>
    simp only [GeoIndex.rebuild] at hstep
    split at hstep
    · cases hstep
      simp only [settled_setRebuild, Holds, hrebuild, iff_true]
      -- with nothing renamed yet, every type is still to be rewritten
      exact fun typeId _ _ hrewrites => absurd (Finset.notMem_empty typeId) (hrewrites _ rfl)
    · cases hstep
  | rename snapshot remaining activeKeys =>
    cases remaining with
    | nil =>
      cases hstep
      exact settled_scan hs hrebuild
    | cons renamed remaining =>
      cases hstep
      exact settled_rename hs hrebuild
  | delete staleKeys =>
    cases hstep
    exact settled_delete hs hrebuild

/-- **The step lemma**: a step keeps the index settled exactly if it meets the condition. -/
theorem settled_step {a : Action Worker Double} (hs : Settled s) (hstep : step s a = some t) :
    Settled t ↔ Holds s a := by
  cases a with
  | save id shop =>
    simp only [step] at hstep
    split at hstep
    · rename_i hrow hfree
      cases hstep
      exact iff_of_true (settled_begin hs hfree hrow.symm (Or.inr ⟨rfl, rfl⟩)) trivial
    · cases hstep
  | update id shop =>
    simp only [step] at hstep
    split at hstep
    · rename_i oldShop hrow hfree
      cases hstep
      exact iff_of_true (settled_begin hs hfree hrow.symm (Or.inl rfl)) trivial
    · cases hstep
  | sync id =>
    obtain ⟨write, hwrite, hstep⟩ := Option.bind_eq_some_iff.mp hstep
    obtain ⟨r, hsync, hstep⟩ := Option.map_eq_some_iff.mp hstep
    cases hstep
    exact iff_of_true (settled_sync hs hwrite hsync) trivial
  | commit id =>
    simp only [step] at hstep
    split at hstep
    · rename_i oldShop newShop hwrite
      cases hstep
      exact iff_of_true (settled_commit hs hwrite) trivial
    · cases hstep
  | rollback id =>
    obtain ⟨write, -, hstep⟩ := Option.map_eq_some_iff.mp hstep
    cases hstep
    exact settled_rollback hs
  | start w =>
    simp only [step] at hstep
    split at hstep
    · cases hstep
      refine iff_of_true (fun typeId id hpending => ?_) trivial
      exact absurd ((pending_setRebuild _).mpr (Or.inr ⟨.list, rfl, trivial⟩)) hpending
    · cases hstep
  | rebuild w order =>
    obtain ⟨rebuild, hrebuild, hstep⟩ := Option.bind_eq_some_iff.mp hstep
    obtain ⟨r, hnext, hstep⟩ := Option.map_eq_some_iff.mp hstep
    cases hstep
    exact settled_rebuild hs hrebuild hnext

end Step

/-! ## A rebuild that nobody disturbs -/

/-- No shop is being written, and the rebuild has read the rows as they are. The sets, and the types
of the rows, have names of digits, as an unsigned column gives them. -/
structure Alone (w : Worker) (s : State Worker Double) : Prop where
  writes : ∀ id, s.writes id = none
  types : ∀ typeId ∈ s.rows.types, matchesDigits typeId.toText = true
  keys : ∀ typeId, (s.geo typeId).entries.isEmpty = false → matchesDigits typeId.toText = true
  renames : ∀ snapshot remaining activeKeys,
    s.rebuilds w = some (.rename snapshot remaining activeKeys) →
      snapshot = s.rows ∧ ∀ typeId ∈ s.rows.types, typeId ∈ remaining ∨ typeId ∈ activeKeys
  deletes : ∀ staleKeys, s.rebuilds w = some (.delete staleKeys) →
    ∀ typeId, staleKeys typeId = true → typeId ∉ s.rows.types

section Alone

variable {s t : State Worker Double} {typeId : ShopTypeId} {id : ShopId} {w : Worker}
  {order : List ShopTypeId}

omit [DecidableEq Worker] in
/-- A type without shops. -/
theorem Alone.target_eq_none (hs : Alone w s) (htype : typeId ∉ s.rows.types) :
    target typeId id s = none := by
  rw [target, hs.writes id]
  refine Option.eq_none_iff_forall_ne_some.mpr fun point hpoint => htype ?_
  obtain ⟨shop, hshop, hposition⟩ := Option.bind_eq_some_iff.mp hpoint
  exact ShopRows.mem_types.mpr ⟨id, shop, point, hshop, GeoShop.position_eq_some.mp hposition⟩

omit [DecidableEq Worker] in
/-- Its steps meet the condition. -/
theorem Alone.holds (hs : Alone w s) : Holds s (.rebuild w order) := by
  unfold Holds
  simp only
  split
  · rename_i snapshot typeId remaining activeKeys hrebuild
    intro id _
    rw [(hs.renames _ _ _ hrebuild).1, target, hs.writes id]
  · rename_i snapshot activeKeys hrebuild
    intro typeId id hactive hstale _
    have htype : typeId ∉ s.rows.types := fun htype =>
      ((hs.renames _ _ _ hrebuild).2 typeId htype).elim (List.not_mem_nil ·) hactive
    rw [hs.target_eq_none htype]
    -- a set that is not stale is no set
    have hempty : (s.geo typeId).entries.isEmpty = true := by
      by_contra hkey
      have hdigits := hs.keys typeId (by simpa using hkey)
      simp [GeoIndex.staleKeys, hdigits, hactive] at hstale
      exact hkey (by simpa using hstale)
    have hkey : s.geo typeId = ∅ := AList.ext (List.isEmpty_iff.mp hempty)
    rw [hkey, AList.lookup_empty]
  · rename_i staleKeys hrebuild
    exact fun typeId id hstale _ => hs.target_eq_none (hs.deletes _ hrebuild typeId hstale)
  · trivial

theorem Alone.step (hs : Alone w s) (hstep : step s (.rebuild w order) = some t) : Alone w t := by
  obtain ⟨rebuild, hrebuild, hstep⟩ := Option.bind_eq_some_iff.mp hstep
  obtain ⟨r, hnext, hstep⟩ := Option.map_eq_some_iff.mp hstep
  cases hstep
  have hself : (State.setRebuild { s with geo := r.1 } w r.2).rebuilds w = r.2 :=
    Function.update_self _ _ _
  cases rebuild with
  | list =>
    simp only [GeoIndex.rebuild] at hnext
    split at hnext
    · rename_i horder
      cases hnext
      refine ⟨hs.writes, hs.types, hs.keys, fun _ _ _ hrename => ?_, fun _ hdelete => ?_⟩
      · cases hself.symm.trans hrename
        exact ⟨rfl, fun typeId htype => Or.inl (List.mem_toFinset.mp (horder.2 ▸ htype))⟩
      · cases hself.symm.trans hdelete
    · cases hnext
  | rename snapshot remaining activeKeys =>
    obtain ⟨hsnapshot, hall⟩ := hs.renames _ _ _ hrebuild
    cases remaining with
    | nil =>
      cases hnext
      refine ⟨hs.writes, hs.types, hs.keys, fun _ _ _ hrename => ?_,
        fun _ hdelete typeId hstale htype => ?_⟩
      · cases hself.symm.trans hrename
      · cases hself.symm.trans hdelete
        have hactive : typeId ∉ activeKeys := by
          simp only [GeoIndex.staleKeys, Bool.and_eq_true, Bool.not_eq_true',
            decide_eq_false_iff_not] at hstale
          exact hstale.2
        exact (hall typeId htype).elim (List.not_mem_nil ·) hactive
    | cons renamed remaining =>
      cases hnext
      refine ⟨hs.writes, hs.types, fun typeId hkey => ?_, fun _ _ _ hrename => ?_,
        fun _ hdelete => ?_⟩
      · by_cases htype : typeId = renamed
        · subst htype
          have hbuilt : (Function.update s.geo typeId (snapshot.located typeId)
            typeId).entries.isEmpty = false := hkey
          rw [Function.update_self, hsnapshot] at hbuilt
          exact hs.types typeId (ShopRows.mem_types_of_located hbuilt)
        · have hold : (Function.update s.geo renamed (snapshot.located renamed)
            typeId).entries.isEmpty = false := hkey
          rw [Function.update_of_ne htype] at hold
          exact hs.keys typeId hold
      · cases hself.symm.trans hrename
        refine ⟨hsnapshot, fun typeId htype => ?_⟩
        obtain hmem | hactive := hall typeId htype
        · obtain rfl | hmem := List.mem_cons.mp hmem
          · exact Or.inr (Finset.mem_insert_self _ _)
          · exact Or.inl hmem
        · exact Or.inr (Finset.mem_insert_of_mem hactive)
      · cases hself.symm.trans hdelete
  | delete staleKeys =>
    cases hnext
    refine ⟨hs.writes, hs.types, fun typeId hkey => ?_, fun _ _ _ hrename => ?_,
      fun _ hdelete => ?_⟩
    · have hold : (s.geo.delete staleKeys typeId).entries.isEmpty = false := hkey
      unfold GeoIndex.delete at hold
      split at hold
      · cases hold
      · exact hs.keys typeId hold
    · cases hself.symm.trans hrename
    · cases hself.symm.trans hdelete

/-- **A rebuild alone** meets the condition in every step, to its end. -/
theorem Alone.along {orders : List (List ShopTypeId)} (hs : Alone w s)
    (hrun : run Geo.step s (orders.map (Action.rebuild w)) = some t) :
    Along Geo.step Holds s (orders.map (Action.rebuild w)) ∧ Alone w t := by
  induction orders generalizing s with
  | nil =>
    cases hrun
    exact ⟨trivial, hs⟩
  | cons order orders ih =>
    obtain ⟨u, hu, hrest⟩ := run_cons.mp hrun
    obtain ⟨halong, ht⟩ := ih (hs.step hu) hrest
    refine ⟨⟨hs.holds, fun u' hu' => ?_⟩, ht⟩
    cases hu.symm.trans hu'
    exact halong

end Alone

/-! ## Whole runs -/

section Runs

variable {rows : ShopRows Double} {geo : GeoIndex Double}

theorem location_eq_some {shop : GeoShop Double} {typeId : ShopTypeId} {point : Double × Double} :
    shop.location = some (typeId, point) ↔
      shop.typeId = some typeId ∧ shop.x = some point.1 ∧ shop.y = some point.2 := by
  obtain ⟨_ | type, _ | x, _ | y⟩ := shop <;> simp [GeoShop.location, Prod.ext_iff]

theorem indexed_iff :
    Indexed rows geo ↔
      ∀ typeId id, (geo typeId).lookup id = rowPosition (rows.lookup id) typeId := by
  unfold Indexed rowPosition
  refine forall_congr' fun typeId => forall_congr' fun id => ?_
  have hposition : ∀ point, (rows.lookup id).bind (fun shop => shop.position typeId) = some point ↔
      ∃ shop, rows.lookup id = some shop ∧ shop.typeId = some typeId ∧ shop.x = some point.1 ∧
        shop.y = some point.2 := fun point => by
    simp only [Option.bind_eq_some_iff, GeoShop.position_eq_some, location_eq_some]
  constructor
  · exact fun h => Option.ext fun point => (h point).trans (hposition point).symm
  · exact fun h point => by rw [h, hposition]

omit [DecidableEq Worker] in
theorem settled_init {starting : Worker → Bool}
    (hinit : Indexed rows geo ∨ ∃ w, starting w = true) :
    Settled (.init rows geo starting : State Worker Double) := by
  intro typeId id hpending
  obtain hindexed | ⟨w, hw⟩ := hinit
  · exact indexed_iff.mp hindexed typeId id
  · refine absurd (Or.inr ⟨w, .list, ?_, trivial⟩) hpending
    simp [State.init, hw]

/-- **The geo index and the shop table.** Starting from an index that is the table's, or with a
rebuild: the steps of a run all meet the condition exactly if the index is settled in every state
the run reaches; and then, with nothing in flight, the index is the table's. -/
theorem geo_index_iff {starting : Worker → Bool} {t : State Worker Double}
    {actions : List (Action Worker Double)}
    (hinit : Indexed rows geo ∨ ∃ w, starting w = true)
    (hrun : run step (.init rows geo starting) actions = some t) :
    (Along step Holds (.init rows geo starting) actions ↔ ∀ before s, before <+: actions →
      run step (.init rows geo starting) before = some s → Settled s) ∧
    (Along step Holds (.init rows geo starting) actions → (∀ id, t.writes id = none) →
      (∀ w, t.rebuilds w = none) → Indexed t.rows t.geo) := by
  have hiff : Along step Holds (.init rows geo starting) actions ↔ ∀ before s, before <+: actions →
      run step (.init rows geo starting) before = some s → Settled s :=
    along_iff_invariant (J := fun _ => True) (fun _ _ _ _ _ _ => trivial)
      (fun _ _ _ _ hs hstep => settled_step hs hstep) trivial (settled_init hinit) hrun
  refine ⟨hiff, fun hholds hwrites hrebuilds => indexed_iff.mpr fun typeId id => ?_⟩
  refine (hiff.mp hholds actions t List.prefix_rfl hrun typeId id ?_).trans ?_
  · rintro (⟨write, hwrite, -⟩ | ⟨w, rebuild, hrebuild, -⟩)
    · rw [hwrites id] at hwrite
      cases hwrite
    · rw [hrebuilds w] at hrebuild
      cases hrebuild
  · rw [target, hwrites id]

end Runs

/-! ## Runs -/

/-- A shop of type 1 at (3, 4), and one without coordinates. -/
def twoShops : ShopRows ℕ :=
  ((∅ : ShopRows ℕ).insert 1 ⟨some 1, some 3, some 4⟩).insert 2 ⟨some 1, some 3, none⟩

/-- A set of a type that has no shops any more. -/
def leftIndex : GeoIndex ℕ := fun typeId => if typeId = 3 then AList.singleton 9 (5, 6) else ∅

/-- The orders that the steps of a rebuild are given. -/
def startup : List (List ShopTypeId) := [[1], [], [], []]

theorem geo_index_iff_startup :
    ∃ t : State Unit ℕ,
      run step (.init twoShops leftIndex fun _ => true) (startup.map (.rebuild ())) = some t ∧
      Indexed t.rows t.geo ∧ (t.geo 1).lookup 1 = some (3, 4) ∧ (t.geo 3).lookup 9 = none := by
  obtain ⟨t, hrun, hend⟩ := Option.map_eq_some_iff.mp
    (show (run step (State.init twoShops leftIndex fun _ => true)
      (startup.map (Action.rebuild ()))).map (fun t =>
        decide ((t.rebuilds ()).isNone ∧ (t.geo 1).lookup 1 = some (3, 4) ∧
          (t.geo 3).lookup 9 = none)) = some true by decide +kernel)
  obtain ⟨hended, hshop, hstale⟩ := of_decide_eq_true hend
  have halone : Alone () (State.init twoShops leftIndex fun _ => true) := by
    refine ⟨fun _ => rfl, by decide +kernel, fun typeId hkey => ?_, fun _ _ _ h => (nomatch h),
      fun _ h => (nomatch h)⟩
    have hset : (leftIndex typeId).entries.isEmpty = false := hkey
    unfold leftIndex at hset
    split at hset
    · rename_i htype
      rw [htype]
      decide +kernel
    · cases hset
  obtain ⟨halong, ht⟩ := halone.along hrun
  exact ⟨t, hrun, (geo_index_iff (Or.inr ⟨(), rfl⟩) hrun).2 halong ht.writes
    (fun _ => Option.isNone_iff_eq_none.mp hended), hshop, hstale⟩

/-- A shop is saved, and the transaction rolls back after its `GEOADD`. -/
def rolledBack : List (Action Unit ℕ) :=
  [.save 5 ⟨some 1, some 7, some 8⟩, .sync 5, .rollback 5]

/-- A shop is saved between a rebuild's read and its `RENAME`. -/
def savedMeanwhile : List (Action Unit ℕ) :=
  [.start (), .rebuild () [1], .save 5 ⟨some 1, some 7, some 8⟩, .sync 5, .commit 5,
    .rebuild () [], .rebuild () [], .rebuild () []]

theorem index_differs :
    (¬ ∀ (actions : List (Action Unit ℕ)) (t : State Unit ℕ), (∀ w, Action.start w ∉ actions) →
      run step (.init twoShops twoShops.located fun _ => false) actions = some t →
        (∀ id, t.writes id = none) → (∀ w, t.rebuilds w = none) → Indexed t.rows t.geo) ∧
    ¬ ∀ (actions : List (Action Unit ℕ)) (t : State Unit ℕ), (∀ id, Action.rollback id ∉ actions) →
      run step (.init twoShops twoShops.located fun _ => false) actions = some t →
        (∀ id, t.writes id = none) → (∀ w, t.rebuilds w = none) → Indexed t.rows t.geo := by
  constructor
  · intro h
    obtain ⟨t, hrun, hend⟩ := Option.map_eq_some_iff.mp
      (show (run step (State.init twoShops twoShops.located fun _ => false) rolledBack).map
        (fun t : State Unit ℕ => decide ((t.rebuilds ()).isNone ∧
          (t.geo 1).lookup 5 = some (7, 8) ∧ t.rows.lookup 5 = none)) = some true by decide +kernel)
    obtain ⟨hrebuild, hentry, hrow⟩ := of_decide_eq_true hend
    have hwrites : ∀ id, t.writes id = none := fun id => by
      cases hrun
      simp [State.setWrite, State.init]
    have hindexed := h rolledBack t (by simp [rolledBack]) hrun hwrites
      fun _ => Option.isNone_iff_eq_none.mp hrebuild
    obtain ⟨shop, hshop, -⟩ := (hindexed 1 5 (7, 8)).mp hentry
    cases hrow.symm.trans hshop
  · intro h
    obtain ⟨t, hrun, hend⟩ := Option.map_eq_some_iff.mp
      (show (run step (State.init twoShops twoShops.located fun _ => false) savedMeanwhile).map
        (fun t : State Unit ℕ => decide ((t.rebuilds ()).isNone ∧
          t.rows.lookup 5 = some ⟨some 1, some 7, some 8⟩ ∧ (t.geo 1).lookup 5 = none)) = some true
        by decide +kernel)
    obtain ⟨hrebuild, hrow, hentry⟩ := of_decide_eq_true hend
    have hwrites : ∀ id, t.writes id = none := fun id => by
      cases hrun
      simp [State.setWrite, State.setRebuild, State.init]
    have hindexed := h savedMeanwhile t (by simp [savedMeanwhile]) hrun hwrites
      fun _ => Option.isNone_iff_eq_none.mp hrebuild
    cases hentry.symm.trans ((hindexed 1 5 (7, 8)).mpr ⟨_, hrow, rfl, rfl, rfl⟩)

end Hmdp.Geo
