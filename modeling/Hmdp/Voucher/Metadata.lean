import Hmdp.Voucher.Step
import Mathlib.Data.Fintype.Basic

/-!
# The hash of a voucher and its rows

An update writes the hash before it commits and computes it from what it has read at its start, a
rebuild writes what it has read in two statements, a compensation what its update had read; nothing
keeps two of them apart. So updates of different fields may undo each other in the hash, and a
rebuild may write what an update is just replacing.

Where every write of the hash is of current values and none happens while another update is between
its own write and its end (`Isolated`), the hash and the rows agree whenever no update is there.

* `Inv`: the hash is the rows', or those of the one update that has written it.
* **`activity_agrees`**: the agreement at rest.
* `lost_status`: two updates after which the hash has the status of before.
-/

namespace Hmdp.Voucher

open Hmdp.Lib Hmdp.Model

variable {Thread Jvm : Type}

/-! ## What a task has under way -/

/-- The rows an update has read. -/
def Work.old : Work → Option Activity
  | .update _ (.patchVoucher old) => some old
  | .update _ (.patchSeckill old) => some old
  | .update _ (.putAll old) => some old
  | .update _ (.localPut old) => some old
  | .update _ (.commit old) => some old
  | .update _ (.restore old) => some old
  | .update _ (.restoreLocal old) => some old
  | _ => none

/-- The update is between its write of the hash and its commit. -/
def Work.written : Work → Option (SeckillVoucherUpdateDTO × Activity)
  | .update u (.localPut old) => some (u, old)
  | .update u (.commit old) => some (u, old)
  | _ => none

/-- The update is between its write of the hash and its end: its commit, or the compensation's
write. -/
def Work.dirty : Work → Bool
  | .update _ (.localPut _) => true
  | .update _ (.commit _) => true
  | .update _ (.restore _) => true
  | _ => false

/-- What a rebuild, in a query or on its own, is about to write. -/
def Work.loaded : Work → Option Activity
  | .rebuild (.load (.putAll read)) => some read
  | .query _ (.load (.putAll read)) => some read
  | _ => none

/-- What the thread is at work on. -/
def State.work (s : State Thread Jvm) (th : Thread) : Option Work := (s.tasks th).map Task.work

/-- No other update is between its write of the hash and its end. -/
def Alone (s : State Thread Jvm) (th : Thread) : Prop :=
  ∀ other, other ≠ th → ∀ work, s.work other = some work → work.dirty = false

/-- The next statement writes the hash. -/
def Work.writesHash : Work → Bool
  | .update _ (.putAll _) => true
  | .update _ (.restore _) => true
  | .rebuild (.load (.putAll _)) => true
  | .query _ (.load (.putAll _)) => true
  | _ => false

/-- What the next statement writes is what the rows `db` have now, an update's own fields apart;
these are as the columns keep them. -/
def Work.current (column : Time → Time) (db : Activity) : Work → Bool
  | .update u (.putAll old) => decide (u.kept column = u ∧ u.apply old = u.apply db)
  | .update _ (.restore old) => decide (old = db)
  | .rebuild (.load (.putAll read)) => decide (read = db)
  | .query _ (.load (.putAll read)) => decide (read = db)
  | _ => true

/-- The condition on a thread's next statement. -/
def IsolatedWork (column : Time → Time) (s : State Thread Jvm) (th : Thread) (work : Work) : Prop :=
  work.writesHash = true → work.current column s.store.db = true ∧ Alone s th

/-- Whoever writes the hash writes current values, patched times being as the columns keep them,
while no other update is between its write of the hash and its end. -/
def Isolated (column : Time → Time) (s : State Thread Jvm) : Action Thread Jvm → Prop
  | .next th _ _ => ∀ work, s.work th = some work → IsolatedWork column s th work
  | _ => True

section

variable [Fintype Thread] [DecidableEq Thread]

instance (s : State Thread Jvm) (th : Thread) : Decidable (Alone s th) :=
  inferInstanceAs (Decidable (∀ other, other ≠ th → ∀ work ∈ s.work other, work.dirty = false))

instance (column : Time → Time) (s : State Thread Jvm) (th : Thread) (work : Work) :
    Decidable (IsolatedWork column s th work) := inferInstanceAs (Decidable (_ → _))

instance (column : Time → Time) (s : State Thread Jvm) :
    ∀ a, Decidable (Isolated column s a)
  | .next th _ _ => inferInstanceAs (Decidable (∀ work ∈ s.work th, IsolatedWork column s th work))
  | .start _ _ _ => isTrue trivial
  | .throw _ => isTrue trivial
  | .consume _ _ => isTrue trivial
  | .expireLocal _ => isTrue trivial
  | .expireActivity => isTrue trivial
  | .expireNull => isTrue trivial

end

/-! ## The invariant -/

/-- **The invariant**: rows are valid, one update at a time has written, and the hash is the row
unless an update is under way. -/
structure Inv (column : Time → Time) (s : State Thread Jvm) : Prop where
  valid : s.store.db.valid = true
  old : ∀ th work old, s.work th = some work → work.old = some old → old.valid = true
  written : ∀ th work u old, s.work th = some work → work.written = some (u, old) →
    u.kept column = u ∧ u.apply old = u.apply s.store.db ∧ (u.apply old).valid = true ∧
      ∀ a, s.store.activity = some a → a = u.apply old
  one : ∀ th th' work work', s.work th = some work → s.work th' = some work' →
    work.written.isSome = true → work'.written.isSome = true → th = th'
  clean : (∀ th work, s.work th = some work → work.dirty = false) →
    ∀ a, s.store.activity = some a → a = s.store.db

variable {column : Time → Time} {s t : State Thread Jvm} {th : Thread}

theorem dirty_of_written {work : Work} (h : work.written.isSome = true) : work.dirty = true := by
  unfold Work.written at h
  unfold Work.dirty
  split at h
  · rfl
  · rfl
  · cases h

/-- A step of `th` to the work `new`. -/
structure Moves (s t : State Thread Jvm) (th : Thread) (new : Option Work) : Prop where
  own : t.work th = new
  others : ∀ other, other ≠ th → t.work other = s.work other

/-- A step that writes neither the hash nor the rows, and does not end an update that has written
the hash. -/
theorem Inv.calm {new : Option Work} (hs : Inv column s) (hm : Moves s t th new)
    (hdb : t.store.db = s.store.db) (hactivity : t.store.activity = s.store.activity)
    (hdirty : ∀ work, s.work th = some work → work.dirty = true →
      ∃ work', new = some work' ∧ work'.dirty = true)
    (hold : ∀ work' old, new = some work' → work'.old = some old → old.valid = true)
    (hwritten : ∀ work', new = some work' → work'.written.isSome = true →
      ∃ work, s.work th = some work ∧ work'.written = work.written) : Inv column t where
  valid := by
    rw [hdb]
    exact hs.valid
  old th' work' old h hof := by
    by_cases hth : th' = th
    · subst hth
      exact hold work' old (hm.own.symm.trans h) hof
    · rw [hm.others th' hth] at h
      exact hs.old th' work' old h hof
  written th' work' u old h hof := by
    rw [hdb, hactivity]
    by_cases hth : th' = th
    · subst hth
      obtain ⟨work, hwork, hsame⟩ := hwritten work' (hm.own.symm.trans h) (by rw [hof]; rfl)
      exact hs.written th' work u old hwork (hsame.symm.trans hof)
    · rw [hm.others th' hth] at h
      exact hs.written th' work' u old h hof
  one th₁ th₂ work₁ work₂ h₁ h₂ hw₁ hw₂ := by
    have hback : ∀ th' work', t.work th' = some work' → work'.written.isSome = true →
        ∃ work'', s.work th' = some work'' ∧ work''.written.isSome = true := by
      intro th' work' h hw
      by_cases hth : th' = th
      · subst hth
        obtain ⟨work, hwork, hsame⟩ := hwritten work' (hm.own.symm.trans h) hw
        exact ⟨work, hwork, hsame ▸ hw⟩
      · rw [hm.others th' hth] at h
        exact ⟨work', h, hw⟩
    obtain ⟨_, h₁, hw₁⟩ := hback th₁ work₁ h₁ hw₁
    obtain ⟨_, h₂, hw₂⟩ := hback th₂ work₂ h₂ hw₂
    exact hs.one th₁ th₂ _ _ h₁ h₂ hw₁ hw₂
  clean hall a ha := by
    rw [hdb]
    rw [hactivity] at ha
    refine hs.clean (fun th' work h => ?_) a ha
    by_cases hth : th' = th
    · subst hth
      cases hd : work.dirty with
      | false => rfl
      | true =>
        obtain ⟨work', hnew, hd'⟩ := hdirty work h hd
        exact absurd (hall th' work' (hm.own.trans hnew)) (by rw [hd']; nofun)
    · exact hall th' work ((hm.others th' hth).trans h)

/-- The same for a thread that has a call. -/
theorem Inv.quiet {work : Work} {new : Option Work} (hs : Inv column s)
    (hwork : s.work th = some work) (hm : Moves s t th new) (hdb : t.store.db = s.store.db)
    (hactivity : t.store.activity = s.store.activity)
    (hdirty : work.dirty = true → ∃ work', new = some work' ∧ work'.dirty = true)
    (hold : ∀ work' old, new = some work' → work'.old = some old → old.valid = true)
    (hwritten : ∀ work', new = some work' → work'.written.isSome = true →
      work'.written = work.written) : Inv column t := by
  refine hs.calm hm hdb hactivity (fun work' h hd => ?_) hold fun work' hnew hw =>
    ⟨work, hwork, hwritten work' hnew hw⟩
  obtain rfl : work = work' := Option.some.inj (hwork.symm.trans h)
  exact hdirty hd

/-- A write of the rows' values, with no update between its write of the hash and its end. -/
theorem Inv.settle {new : Option Work} (hs : Inv column s) (hm : Moves s t th new)
    (hdb : t.store.db = s.store.db) (hactivity : t.store.activity = some s.store.db)
    (halone : Alone s th) (hclean : ∀ work', new = some work' → work'.dirty = false)
    (hold : ∀ work' old, new = some work' → work'.old = some old → old.valid = true) :
    Inv column t := by
  have hnone : ∀ th' work', t.work th' = some work' → work'.dirty = false := by
    intro th' work' h
    by_cases hth : th' = th
    · subst hth
      exact hclean work' (hm.own.symm.trans h)
    · rw [hm.others th' hth] at h
      exact halone th' hth work' h
  have hunwritten : ∀ th' work', t.work th' = some work' → work'.written.isSome = true → False :=
    fun th' work' h hw => absurd (dirty_of_written hw) (by rw [hnone th' work' h]; nofun)
  refine ⟨by rw [hdb]; exact hs.valid, fun th' work' old h hof => ?_,
    fun th' work' u old h hof => ?_, fun th' _ work' _ h _ hw => ?_, fun _ a ha => ?_⟩
  · by_cases hth : th' = th
    · subst hth
      exact hold work' old (hm.own.symm.trans h) hof
    · rw [hm.others th' hth] at h
      exact hs.old th' work' old h hof
  · exact (hunwritten th' work' h (by rw [hof]; rfl)).elim
  · exact (hunwritten th' work' h hw).elim
  · rw [hdb]
    exact Option.some.inj (ha.symm.trans hactivity)

/-- An update's write of the hash. -/
theorem Inv.write {u : SeckillVoucherUpdateDTO} {old : Activity} (hs : Inv column s)
    (hm : Moves s t th (some (.update u (.localPut old)))) (hdb : t.store.db = s.store.db)
    (hactivity : t.store.activity = some (u.apply old)) (hold : old.valid = true)
    (hkept : u.kept column = u) (hcurrent : u.apply old = u.apply s.store.db)
    (hvalid : (u.apply old).valid = true) (halone : Alone s th) : Inv column t := by
  have honly : ∀ th' work', t.work th' = some work' → work'.written.isSome = true → th' = th := by
    intro th' work' h hw
    by_contra hth
    rw [hm.others th' hth] at h
    exact absurd (dirty_of_written hw) (by rw [halone th' hth work' h]; nofun)
  refine ⟨by rw [hdb]; exact hs.valid, fun th' work' old' h hof => ?_,
    fun th' work' u' old' h hof => ?_, fun th₁ th₂ _ _ h₁ h₂ hw₁ hw₂ => ?_, fun hall => ?_⟩
  · by_cases hth : th' = th
    · subst hth
      obtain rfl : _ = work' := Option.some.inj (hm.own.symm.trans h)
      cases hof
      exact hold
    · rw [hm.others th' hth] at h
      exact hs.old th' work' old' h hof
  · obtain rfl := honly th' work' h (by rw [hof]; rfl)
    obtain rfl : _ = work' := Option.some.inj (hm.own.symm.trans h)
    cases hof
    rw [hdb]
    exact ⟨hkept, hcurrent, hvalid, fun a ha => Option.some.inj (ha.symm.trans hactivity)⟩
  · exact (honly th₁ _ h₁ hw₁).trans (honly th₂ _ h₂ hw₂).symm
  · exact absurd (hall th _ hm.own) nofun

/-- The commit of the update that has written the hash. -/
theorem Inv.commit {u : SeckillVoucherUpdateDTO} {old : Activity} (hs : Inv column s)
    (hwork : s.work th = some (.update u (.commit old)))
    (hm : Moves s t th (some (.update u .afterCommit)))
    (hdb : t.store.db = (u.kept column).apply s.store.db)
    (hactivity : t.store.activity = s.store.activity) : Inv column t := by
  obtain ⟨hkept, hcurrent, hvalid, hhash⟩ := hs.written th _ u old hwork rfl
  rw [hkept, ← hcurrent] at hdb
  have hunwritten : ∀ th' work', t.work th' = some work' → work'.written.isSome = true → False := by
    intro th' work' h hw
    by_cases hth : th' = th
    · subst hth
      obtain rfl : _ = work' := Option.some.inj (hm.own.symm.trans h)
      cases hw
    · rw [hm.others th' hth] at h
      exact hth (hs.one th' th work' _ h hwork hw rfl)
  refine ⟨by rw [hdb]; exact hvalid, fun th' work' old' h hof => ?_,
    fun th' work' u' old' h hof => ?_, fun th' _ work' _ h _ hw => ?_, fun _ a ha => ?_⟩
  · by_cases hth : th' = th
    · subst hth
      obtain rfl : _ = work' := Option.some.inj (hm.own.symm.trans h)
      cases hof
    · rw [hm.others th' hth] at h
      exact hs.old th' work' old' h hof
  · exact (hunwritten th' work' h (by rw [hof]; rfl)).elim
  · exact (hunwritten th' work' h hw).elim
  · rw [hactivity] at ha
    rw [hdb]
    exact hhash a ha

/-! ## Statements -/

variable [DecidableEq Jvm] {store store' : VoucherStore Thread Jvm}
  {jvm : Jvm} {locked expired : Bool}

/-- A statement that leaves the rows and the hash. -/
def Leaves (store store' : VoucherStore Thread Jvm) : Prop :=
  store'.db = store.db ∧ store'.activity = store.activity

/-- A patch of a row waits for it, or takes its lock if there is anything to patch. -/
theorem patchVoucher_cases [DecidableEq Thread] {u : SeckillVoucherUpdateDTO} {old : Activity}
    {phase' : VoucherUpdatePhase}
    (h : store.update column th jvm u (.patchVoucher old) = some (store', phase')) :
    phase' = .patchSeckill old ∧ ∃ lock, store' = { store with voucherLock := lock } := by
  simp only [VoucherStore.update] at h
  split at h
  · cases h
    exact ⟨rfl, store.voucherLock, rfl⟩
  · split at h <;> cases h
    exact ⟨rfl, some th, rfl⟩

theorem patchSeckill_cases [DecidableEq Thread] {u : SeckillVoucherUpdateDTO} {old : Activity}
    {phase' : VoucherUpdatePhase}
    (h : store.update column th jvm u (.patchSeckill old) = some (store', phase')) :
    phase' = .putAll old ∧ ∃ lock, store' = { store with seckillLock := lock } := by
  simp only [VoucherStore.update] at h
  split at h
  · cases h
    exact ⟨rfl, store.seckillLock, rfl⟩
  · split at h <;> cases h
    exact ⟨rfl, some th, rfl⟩

/-- `loadFromDatabase` writes the hash, with what it has read, or leaves it. -/
theorem load_cases {phase phase' : LoadPhase} (h : store.load jvm phase = some (store', phase')) :
    Leaves store store' ∨ ∃ read, phase = .putAll read ∧ phase' = .localPut read ∧
      store'.db = store.db ∧ store'.activity = some read := by
  cases phase with
  | putAll read =>
    simp only [VoucherStore.load] at h
    split at h <;> cases h
    · exact Or.inr ⟨read, rfl, rfl, rfl, rfl⟩
    · exact Or.inl ⟨rfl, rfl⟩
  | _ => first | cases h; exact Or.inl ⟨rfl, rfl⟩ | cases h

theorem query_load {phase : LoadPhase} (h : ∀ read, phase ≠ .done read) :
    store.query jvm locked (.load phase) =
      (store.load jvm phase).map fun r => (r.1, .load r.2) := by
  cases phase with
  | done read => exact absurd rfl (h read)
  | _ => rfl

theorem rebuild_load {phase : LoadPhase} (h : ∀ read, phase ≠ .done read) :
    store.rebuild jvm locked expired (.load phase) =
      (store.load jvm phase).map fun r => (r.1, .load r.2) := by
  cases phase with
  | done read => exact absurd rfl (h read)
  | _ => rfl

theorem query_cases {phase phase' : VoucherQueryPhase}
    (h : store.query jvm locked phase = some (store', phase')) :
    Leaves store store' ∨ ∃ read, phase = .load (.putAll read) ∧
      store'.db = store.db ∧ store'.activity = some read := by
  cases phase with
  | localGet =>
    simp only [VoucherStore.query] at h
    split at h <;> cases h <;> exact Or.inl ⟨rfl, rfl⟩
  | secondLocalGet =>
    simp only [VoucherStore.query] at h
    split at h <;> cases h <;> exact Or.inl ⟨rfl, rfl⟩
  | load phase =>
    by_cases hdone : ∃ read, phase = .done read
    · obtain ⟨read, rfl⟩ := hdone
      cases h
      exact Or.inl ⟨rfl, rfl⟩
    · rw [query_load fun read hread => hdone ⟨read, hread⟩] at h
      obtain ⟨r, hr, heq⟩ := Option.map_eq_some_iff.mp h
      cases heq
      rcases load_cases hr with hleaves | ⟨read, hphase, -, hdb, hactivity⟩
      · exact Or.inl hleaves
      · exact Or.inr ⟨read, congrArg _ hphase, hdb, hactivity⟩
  | returning result => cases h
  | _ =>
    cases h
    exact Or.inl ⟨rfl, rfl⟩

theorem rebuild_cases {phase phase' : RebuildPhase}
    (h : store.rebuild jvm locked expired phase = some (store', phase')) :
    Leaves store store' ∨ ∃ read, phase = .load (.putAll read) ∧
      store'.db = store.db ∧ store'.activity = some read := by
  cases phase with
  | load phase =>
    by_cases hdone : ∃ read, phase = .done read
    · obtain ⟨read, rfl⟩ := hdone
      cases h
      exact Or.inl ⟨rfl, rfl⟩
    · rw [rebuild_load fun read hread => hdone ⟨read, hread⟩] at h
      obtain ⟨r, hr, heq⟩ := Option.map_eq_some_iff.mp h
      cases heq
      rcases load_cases hr with hleaves | ⟨read, hphase, -, hdb, hactivity⟩
      · exact Or.inl hleaves
      · exact Or.inr ⟨read, congrArg _ hphase, hdb, hactivity⟩
  | finished => cases h
  | _ =>
    cases h
    exact Or.inl ⟨rfl, rfl⟩

/-! ## Steps -/

variable [DecidableEq Thread]

omit [DecidableEq Jvm] in
theorem moves_of_tasks {task : Option (Task Jvm)}
    (h : t.tasks = Function.update s.tasks th task) : Moves s t th (task.map Task.work) := by
  refine ⟨?_, fun other hne => ?_⟩
  · simp [State.work, h]
  · simp [State.work, h, hne]

omit [DecidableEq Jvm] in
theorem moves_none (h : t.tasks = Function.update s.tasks th none) : Moves s t th none :=
  moves_of_tasks h

omit [DecidableEq Jvm] in
theorem moves_some {work : Work} (h : t.tasks = Function.update s.tasks th (some ⟨jvm, work⟩)) :
    Moves s t th (some work) := moves_of_tasks h

omit [DecidableEq Jvm] in
theorem moves_thrown {work : Work}
    (h : t.tasks = Function.update s.tasks th (work.thrown.map fun work => ⟨jvm, work⟩)) :
    Moves s t th work.thrown := by
  have hm := moves_of_tasks h
  rwa [Option.map_map, show (Task.work ∘ fun work => (⟨jvm, work⟩ : Task Jvm)) = id from rfl,
    Option.map_id_fun, id] at hm

omit [DecidableEq Jvm] [DecidableEq Thread] in
theorem current_of_loaded {work : Work} {read : Activity} (hloaded : work.loaded = some read)
    (hiso : IsolatedWork column s th work) : read = s.store.db ∧ Alone s th := by
  unfold Work.loaded at hloaded
  split at hloaded
  · cases hloaded
    exact ⟨of_decide_eq_true (hiso rfl).1, (hiso rfl).2⟩
  · cases hloaded
    exact ⟨of_decide_eq_true (hiso rfl).1, (hiso rfl).2⟩
  · cases hloaded

omit [DecidableEq Jvm] [DecidableEq Thread] in
/-- A query or a rebuild has no update under way. -/
theorem Inv.step_other {work work' : Work} (hs : Inv column s) (hwork : s.work th = some work)
    (hm : Moves s t th (some work')) (hwork' : work'.old = none ∧ work'.dirty = false)
    (hdirty : work.dirty = false) (hiso : IsolatedWork column s th work)
    (hcases : Leaves s.store t.store ∨ ∃ read, work.loaded = some read ∧
      t.store.db = s.store.db ∧ t.store.activity = some read) : Inv column t := by
  have hold : ∀ work'' old, some work' = some work'' → work''.old = some old →
      old.valid = true := by
    intro work'' old h hof
    cases h
    rw [hwork'.1] at hof
    cases hof
  rcases hcases with ⟨hdb, hactivity⟩ | ⟨read, hloaded, hdb, hactivity⟩
  · refine hs.quiet hwork hm hdb hactivity (fun h => ?_) hold fun work'' h hw => ?_
    · rw [hdirty] at h
      cases h
    · cases h
      exact absurd (dirty_of_written hw) (by rw [hwork'.2]; nofun)
  · obtain ⟨rfl, halone⟩ := current_of_loaded hloaded hiso
    refine hs.settle hm hdb hactivity halone (fun work'' h => ?_) hold
    cases h
    exact hwork'.2

/-- **A statement of an update.** -/
theorem Inv.step_update {u : SeckillVoucherUpdateDTO} {phase phase' : VoucherUpdatePhase}
    (hs : Inv column s) (hwork : s.work th = some (.update u phase))
    (hm : Moves s t th (some (.update u phase')))
    (hiso : IsolatedWork column s th (.update u phase))
    (hu : s.store.update column th jvm u phase = some (store', phase'))
    (hstore : t.store = store') : Inv column t := by
  have hreads : ∀ {old : Activity}, old.valid = true → ∀ {work' : Work},
      (∀ old', work'.old = some old' → old' = old) →
        ∀ work'' old', some work' = some work'' → work''.old = some old' → old'.valid = true := by
    intro old hvalid work' hof work'' old' h hof'
    cases h
    rw [hof old' hof']
    exact hvalid
  have hnothing : ∀ {work' : Work}, work'.written = none →
      ∀ work'', some work' = some work'' → work''.written.isSome = true →
        work''.written = (Work.update u phase).written := by
    intro work' hnone work'' h hw
    cases h
    rw [hnone] at hw
    cases hw
  cases phase with
  | select =>
    cases hu
    refine hs.quiet hwork hm (by rw [hstore]) (by rw [hstore]) nofun ?_ ?_
    · refine hreads hs.valid fun old' hof => ?_
      split at hof <;> cases hof
      rfl
    · refine hnothing ?_
      split <;> rfl
  | patchVoucher old =>
    have hold := hs.old th _ old hwork rfl
    obtain ⟨rfl, lock, rfl⟩ := patchVoucher_cases hu
    exact hs.quiet hwork hm (by rw [hstore]) (by rw [hstore]) nofun
      (hreads hold fun _ h => (Option.some.inj h).symm) (hnothing rfl)
  | patchSeckill old =>
    have hold := hs.old th _ old hwork rfl
    obtain ⟨rfl, lock, rfl⟩ := patchSeckill_cases hu
    exact hs.quiet hwork hm (by rw [hstore]) (by rw [hstore]) nofun
      (hreads hold fun _ h => (Option.some.inj h).symm) (hnothing rfl)
  | putAll old =>
    have hold := hs.old th _ old hwork rfl
    obtain ⟨hcurrent, halone⟩ := hiso rfl
    obtain ⟨hkept, hcurrent⟩ := of_decide_eq_true hcurrent
    simp only [VoucherStore.update] at hu
    split at hu
    · rename_i hrecord
      cases hu
      exact hs.write hm (by rw [hstore]; rfl) (by rw [hstore]; rfl) hold hkept hcurrent hrecord
        halone
    · cases hu
      exact hs.quiet hwork hm (by rw [hstore]; rfl) (by rw [hstore]; rfl) nofun
        (hreads hold fun _ h => (Option.some.inj h).symm) (hnothing rfl)
  | localPut old =>
    have hold := hs.old th _ old hwork rfl
    cases hu
    refine hs.quiet hwork hm (by rw [hstore]; rfl) (by rw [hstore]; rfl)
      (fun _ => ⟨_, rfl, rfl⟩) (hreads hold fun _ h => (Option.some.inj h).symm)
      fun work'' h _ => ?_
    cases h
    rfl
  | commit old =>
    cases hu
    exact hs.commit hwork hm (by rw [hstore]) (by rw [hstore]; rfl)
  | afterCommit =>
    cases hu
    exact hs.quiet hwork hm (by rw [hstore]; rfl) (by rw [hstore]; rfl) nofun
      (hreads hs.valid nofun) (hnothing rfl)
  | restore old =>
    -- the compensation writes what is current
    have hold := hs.old th _ old hwork rfl
    obtain ⟨hcurrent, halone⟩ := hiso rfl
    obtain rfl : old = s.store.db := of_decide_eq_true hcurrent
    simp only [VoucherStore.update] at hu
    rw [if_pos hold] at hu
    cases hu
    refine hs.settle hm (by rw [hstore]; rfl) (by rw [hstore]; rfl) halone (fun work'' h => ?_)
      (hreads hold fun _ h => (Option.some.inj h).symm)
    cases h
    rfl
  | restoreLocal old =>
    cases hu
    exact hs.quiet hwork hm (by rw [hstore]; rfl) (by rw [hstore]; rfl) nofun
      (hreads hs.valid nofun) (hnothing rfl)
  | finished => cases hu

omit [DecidableEq Jvm] [DecidableEq Thread] in
/-- A call ends that has no write of the hash under way. -/
theorem Inv.ends {work : Work} (hs : Inv column s) (hwork : s.work th = some work)
    (hm : Moves s t th none) (hdb : t.store.db = s.store.db)
    (hactivity : t.store.activity = s.store.activity) (hdirty : work.dirty = false) :
    Inv column t := by
  refine hs.quiet hwork hm hdb hactivity (fun h => ?_) (fun _ _ h => nomatch h)
    fun _ h => nomatch h
  rw [hdirty] at h
  cases h

theorem not_dirty_of_ends {work : Work} (h : work.ends = true) : work.dirty = false := by
  unfold Work.ends at h
  split at h <;> first | rfl | cases h

omit [DecidableEq Jvm] [DecidableEq Thread] in
/-- A step that keeps the tasks and the rows, and the hash unless it expires. -/
theorem Inv.still (hs : Inv column s) (htasks : t.tasks = s.tasks)
    (hdb : t.store.db = s.store.db)
    (hactivity : ∀ a, t.store.activity = some a → s.store.activity = some a) : Inv column t := by
  have hwork : t.work = s.work := by
    funext th
    simp only [State.work, htasks]
  refine ⟨hdb ▸ hs.valid, hwork ▸ hs.old, fun th work u old h hof => ?_, hwork ▸ hs.one,
    fun hall a ha => ?_⟩
  · rw [hwork] at h
    obtain ⟨hkept, hcurrent, hvalid, hhash⟩ := hs.written th work u old h hof
    exact ⟨hkept, hdb ▸ hcurrent, hvalid, fun a ha => hhash a (hactivity a ha)⟩
  · rw [hwork] at hall
    rw [hdb]
    exact hs.clean hall a (hactivity a ha)

omit [DecidableEq Jvm] in
/-- A thread takes up a new call. -/
theorem Inv.start {call : Call} (hs : Inv column s) (hfree : s.tasks th = none) :
    Inv column (s.withTask th (some ⟨jvm, call.begin (s.consumed jvm)⟩)) := by
  have hnone : (call.begin (s.consumed jvm)).old = none ∧
      (call.begin (s.consumed jvm)).written = none := by
    cases call <;> exact ⟨rfl, rfl⟩
  refine hs.calm (moves_some rfl) rfl rfl (fun work h => ?_) (fun work' old h hof => ?_)
    fun work' h hw => ?_
  · simp [State.work, hfree] at h
  · cases h
    rw [hnone.1] at hof
    cases hof
  · cases h
    rw [hnone.2] at hw
    cases hw

/-- A statement of a call. -/
theorem Inv.next {task : Task Jvm} {work : Work} (hs : Inv column s)
    (htask : s.tasks th = some task) (hiso : IsolatedWork column s th task.work)
    (hm : Moves s t th (some work))
    (hnext : task.next column th locked expired s.store = some (store', work))
    (hstore : t.store = store') : Inv column t := by
  have hwork : s.work th = some task.work := congrArg (Option.map Task.work) htask
  obtain ⟨jvm, old⟩ := task
  cases old with
  | update u phase =>
    obtain ⟨r, hr, heq⟩ := Option.map_eq_some_iff.mp hnext
    cases heq
    exact hs.step_update hwork hm hiso hr hstore
  | rebuild phase =>
    obtain ⟨r, hr, heq⟩ := Option.map_eq_some_iff.mp hnext
    cases heq
    refine hs.step_other hwork hm ⟨rfl, rfl⟩ rfl hiso ?_
    rw [hstore]
    rcases rebuild_cases hr with hleaves | ⟨read, rfl, hwrite⟩
    · exact Or.inl hleaves
    · exact Or.inr ⟨read, rfl, hwrite⟩
  | query since phase =>
    obtain ⟨r, hr, heq⟩ := Option.map_eq_some_iff.mp hnext
    cases heq
    refine hs.step_other hwork hm ⟨rfl, rfl⟩ rfl hiso ?_
    rw [hstore]
    rcases query_cases hr with hleaves | ⟨read, rfl, hwrite⟩
    · exact Or.inl hleaves
    · exact Or.inr ⟨read, rfl, hwrite⟩

omit [DecidableEq Jvm] [DecidableEq Thread] in
/-- An exception: an update that has registered its compensation goes on to it. -/
theorem Inv.throw {work : Work} (hs : Inv column s) (hwork : s.work th = some work)
    (hm : Moves s t th work.thrown) (hdb : t.store.db = s.store.db)
    (hactivity : t.store.activity = s.store.activity) (hthrows : work.throws = true) :
    Inv column t := by
  refine hs.quiet hwork hm hdb hactivity (fun hd => ?_) (fun work' old h hof => ?_)
    fun work' h hw => ?_
  · unfold Work.dirty at hd
    split at hd
    · exact ⟨_, rfl, rfl⟩
    · exact ⟨_, rfl, rfl⟩
    · cases hthrows
    · cases hd
  · unfold Work.thrown at h
    split at h <;> cases h <;> exact hs.old th _ old hwork hof
  · unfold Work.thrown at h
    split at h <;> cases h <;> cases hw

/-- **Every isolated step keeps the invariant.** -/
theorem inv_step {a : Action Thread Jvm} (hiso : Isolated column s a) (hs : Inv column s)
    (hstep : step column s a = some t) : Inv column t := by
  cases a with
  | start th jvm call =>
    simp only [step] at hstep
    split at hstep
    · rename_i hfree
      cases hstep
      exact hs.start hfree
    · cases hstep
  | next th locked expired =>
    simp only [step] at hstep
    split at hstep
    · cases hstep
    · rename_i task htask
      have hwork : s.work th = some task.work := congrArg (Option.map Task.work) htask
      split at hstep
      · rename_i hends
        obtain rfl := Option.some.inj hstep
        exact hs.ends hwork (moves_none rfl) rfl rfl (not_dirty_of_ends hends)
      · obtain ⟨r, hr, rfl⟩ := Option.map_eq_some_iff.mp hstep
        exact hs.next htask (hiso _ hwork) (moves_some rfl) hr rfl
  | throw th =>
    simp only [step] at hstep
    split at hstep
    · cases hstep
    · rename_i task htask
      have hwork : s.work th = some task.work := congrArg (Option.map Task.work) htask
      split at hstep
      · rename_i hthrows
        obtain rfl := Option.some.inj hstep
        exact hs.throw hwork (moves_thrown rfl) rfl rfl hthrows
      · cases hstep
  | consume jvm version =>
    simp only [step] at hstep
    split at hstep
    · cases hstep
      exact hs.still rfl rfl fun _ h => h
    · cases hstep
  | expireLocal jvm =>
    cases hstep
    exact hs.still rfl rfl fun _ h => h
  | expireActivity =>
    cases hstep
    exact hs.still rfl rfl nofun
  | expireNull =>
    cases hstep
    exact hs.still rfl rfl fun _ h => h

/-! ## The hash stays -/

theorem isSome_update {u : SeckillVoucherUpdateDTO} {phase phase' : VoucherUpdatePhase}
    (hu : store.update column th jvm u phase = some (store', phase'))
    (h : store.activity.isSome = true) : store'.activity.isSome = true := by
  cases phase with
  | patchVoucher old =>
    obtain ⟨-, lock, rfl⟩ := patchVoucher_cases hu
    exact h
  | patchSeckill old =>
    obtain ⟨-, lock, rfl⟩ := patchSeckill_cases hu
    exact h
  | putAll old =>
    simp only [VoucherStore.update] at hu
    split at hu <;> cases hu
    · rfl
    · exact h
  | restore old =>
    simp only [VoucherStore.update] at hu
    split at hu <;> cases hu
    · rfl
    · exact h
  | finished => cases hu
  | _ =>
    cases hu
    exact h

theorem isSome_next {task : Task Jvm} {work : Work}
    (hnext : task.next column th locked expired store = some (store', work))
    (h : store.activity.isSome = true) : store'.activity.isSome = true := by
  have hcases : ∀ {P : Activity → Prop}, Leaves store store' ∨ (∃ read, P read ∧
      store'.db = store.db ∧ store'.activity = some read) → store'.activity.isSome = true := by
    rintro P (hleaves | ⟨read, -, -, hwrite⟩)
    · rw [hleaves.2]
      exact h
    · rw [hwrite]
      rfl
  obtain ⟨jvm, old⟩ := task
  cases old with
  | update u phase =>
    obtain ⟨r, hr, heq⟩ := Option.map_eq_some_iff.mp hnext
    cases heq
    exact isSome_update hr h
  | rebuild phase =>
    obtain ⟨r, hr, heq⟩ := Option.map_eq_some_iff.mp hnext
    cases heq
    exact hcases (rebuild_cases hr)
  | query since phase =>
    obtain ⟨r, hr, heq⟩ := Option.map_eq_some_iff.mp hnext
    cases heq
    exact hcases (query_cases hr)

/-- The hash goes only when it expires. -/
theorem isSome_step : Preserves (step column) (fun _ a => a ≠ .expireActivity)
    fun s : State Thread Jvm => s.store.activity.isSome = true := by
  intro s a t ha h hstep
  cases a with
  | start th jvm call =>
    simp only [step] at hstep
    split at hstep <;> cases hstep
    exact h
  | next th locked expired =>
    simp only [step] at hstep
    split at hstep
    · cases hstep
    · split at hstep
      · cases hstep
        exact h
      · obtain ⟨r, hr, rfl⟩ := Option.map_eq_some_iff.mp hstep
        exact isSome_next hr h
  | throw th =>
    simp only [step] at hstep
    split at hstep
    · cases hstep
    · split at hstep <;> cases hstep
      exact h
  | consume jvm version =>
    simp only [step] at hstep
    split at hstep <;> cases hstep
    exact h
  | expireLocal jvm =>
    cases hstep
    exact h
  | expireActivity => exact absurd rfl ha
  | expireNull =>
    cases hstep
    exact h

/-! ## Runs -/

omit [DecidableEq Jvm] [DecidableEq Thread] in
theorem inv_init (db : { a : Activity // a.valid = true }) (nullKey : Bool)
    (localCache : Jvm → Option Activity) :
    Inv column (State.init db nullKey localCache : State Thread Jvm) where
  valid := db.2
  old _ _ _ h := nomatch h
  written _ _ _ _ h := nomatch h
  one _ _ _ _ h := nomatch h
  clean _ _ ha := (Option.some.inj ha).symm

/-- No update is between its write of the hash and its end. -/
def Settled (s : State Thread Jvm) : Prop := ∀ th work, s.work th = some work → work.dirty = false

/-- **The hash agrees with the rows.** Along an isolated run, whenever no update is between its
write of the hash and its end (in particular when all calls have ended), what the hash has is what
the rows have; and unless it has expired, the hash is there. -/
theorem activity_agrees {db : { a : Activity // a.valid = true }} {nullKey : Bool}
    {localCache : Jvm → Option Activity} {actions : List (Action Thread Jvm)}
    (hiso : Along (step column) (Isolated column) (State.init db nullKey localCache) actions)
    (hrun : run (step column) (State.init db nullKey localCache) actions = some t)
    (hsettled : Settled t) :
    (∀ a, t.store.activity = some a → a = t.store.db) ∧
      ((∀ a ∈ actions, a ≠ .expireActivity) → t.store.activity = some t.store.db) := by
  have hinv : Inv column t := run_invariant (fun _ _ _ hi hs hstep => inv_step hi hs hstep) hiso
    (inv_init db nullKey localCache) hrun
  refine ⟨hinv.clean hsettled, fun hkept => ?_⟩
  have hsome : t.store.activity.isSome = true :=
    run_invariant isSome_step (along_of_forall (fun a ha _ => hkept a ha) _) rfl hrun
  obtain ⟨a, ha⟩ := Option.isSome_iff_exists.mp hsome
  rw [ha, hinv.clean hsettled a ha]

/-- A row whose activity lasts ten seconds. -/
def activityOfTenSeconds : { a : Activity // a.valid = true } := ⟨⟨0, 10000, 1⟩, by decide⟩

/-- A thread's next statements. -/
def advance (th : Fin 2) (n : ℕ) : List (Action (Fin 2) (Fin 2)) :=
  List.replicate n (.next th true true)

/-- An update of the status, a rebuild, and an update that rolls back after it has written the
hash. -/
def updateRebuildRollback : List (Action (Fin 2) (Fin 2)) :=
  [.start 0 0 (.update ⟨none, none, some 2, false⟩)] ++ advance 0 8 ++
    [.start 1 1 .rebuild] ++ advance 1 8 ++
    [.start 0 0 (.update ⟨some 5000, none, none, false⟩)] ++ advance 0 4 ++ [.throw 0] ++
    advance 0 3

theorem activity_agrees_after_rollback :
    ∃ t, run (step timestampColumn) (State.init activityOfTenSeconds false fun _ => none)
        updateRebuildRollback = some t ∧
      t.store.activity = some ⟨0, 10000, 2⟩ ∧
      (∀ a, t.store.activity = some a → a = t.store.db) ∧
      ((∀ a ∈ updateRebuildRollback, a ≠ .expireActivity) →
        t.store.activity = some t.store.db) := by
  obtain ⟨t, hrun, hends⟩ := Option.map_eq_some_iff.mp
    (show (run (step timestampColumn) (State.init activityOfTenSeconds false fun _ => none)
        updateRebuildRollback).map (fun t => (t.store.activity, decide (∀ th, t.tasks th = none))) =
      some (some ⟨0, 10000, 2⟩, true) by decide +kernel)
  obtain ⟨hactivity, hended⟩ := Prod.mk.inj hends
  have hended : ∀ th, t.tasks th = none := of_decide_eq_true hended
  have hsettled : Settled t := fun th work h => by simp [State.work, hended th] at h
  exact ⟨t, hrun, hactivity, activity_agrees (by decide +kernel) hrun hsettled⟩

/-- Two updates read the rows; one sets the status and commits, then the other sets the begin time
and commits. -/
def statusAndBeginTime : List (Action (Fin 2) (Fin 2)) :=
  [.start 0 0 (.update ⟨none, none, some 2, false⟩),
    .start 1 0 (.update ⟨some 5000, none, none, false⟩)] ++
    advance 0 1 ++ advance 1 1 ++ advance 0 7 ++ advance 1 7

/-- **A lost update.** All calls have ended, and the hash has the status of before. -/
theorem lost_status :
    ∃ t, run (step timestampColumn) (State.init activityOfTenSeconds false fun _ => none)
        statusAndBeginTime = some t ∧
      (∀ th, t.tasks th = none) ∧
      t.store.db = ⟨5000, 10000, 2⟩ ∧ t.store.activity = some ⟨5000, 10000, 1⟩ := by
  obtain ⟨t, hrun, hends⟩ := Option.map_eq_some_iff.mp
    (show (run (step timestampColumn) (State.init activityOfTenSeconds false fun _ => none)
        statusAndBeginTime).map
          (fun t => (decide (∀ th, t.tasks th = none), t.store.db, t.store.activity)) =
      some (true, ⟨5000, 10000, 2⟩, some ⟨5000, 10000, 1⟩) by decide +kernel)
  obtain ⟨hended, hrows⟩ := Prod.mk.inj hends
  obtain ⟨hdb, hactivity⟩ := Prod.mk.inj hrows
  exact ⟨t, hrun, of_decide_eq_true hended, hdb, hactivity⟩

end Hmdp.Voucher
