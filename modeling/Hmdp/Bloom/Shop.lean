import Hmdp.Lib.FailOpen
import Hmdp.Lib.Machine
import Hmdp.Model.BloomFilter
import Mathlib.Data.Fintype.Basic

/-!
# The shop Bloom filter on several JVMs

Calls of `ShopBloomFilter` on any number of JVMs, each with its own `ready` flag over one filter in
Redis, several at once on a JVM; one step is one statement of a call, and any call of Redisson may
throw. An id is visible once a call it was passed to has ended and its row is committed.

* `never_hides`: in the runs whose steps are `Guarded`, no `mightContain` of a visible id that
  starts later returns false; `hides_of_not_guarded` shows that no weaker condition does.
* `hides`: an `add` that fails on one JVM lowers the flag of that JVM only.
-/

namespace Hmdp.ShopBloom

open Hmdp.Lib Hmdp.Model

variable {Thread Jvm : Type} [DecidableEq Thread] [DecidableEq Jvm]

/-- The public methods, as a thread calls them. -/
inductive Call where
  | initializeIds (shopIds : Option (List (Option Long)))
  | put (shopId : Option Long)
  | mightContain (shopId : Option Long)

/-- The first statement; a call with `null` returns at once. -/
def Call.begin : Call → Option ShopBloomPhase
  | .initializeIds shopIds => some (.tryInit (nonNull shopIds))
  | .put shopId => shopId.map .readReady
  | .mightContain shopId => shopId.map .checkReady

/-- A call under way. -/
structure Task (Jvm : Type) where
  jvm : Jvm
  /-- ghost: a `mightContain` started with a visible id -/
  known : Bool
  phase : ShopBloomPhase

/-- A `mightContain` that has returned. -/
structure Answer (Jvm : Type) where
  jvm : Jvm
  id : Long
  known : Bool
  result : Bool
  deriving DecidableEq

/-- The filter, the flag of each JVM, and the calls under way. -/
structure State (Thread Jvm : Type) where
  added : List Long
  ready : Jvm → Bool
  tasks : Thread → Option (Task Jvm)
  /-- the shops whose rows are committed -/
  committed : List Long
  /-- ghost: the ids passed to the calls of `initialize` and `put` that have ended -/
  passed : List Long
  /-- ghost -/
  answers : List (Answer Jvm)

/-- The steps: a call starts or takes its next statement, or a transaction commits. -/
inductive Action (Thread Jvm : Type) where
  | start (th : Thread) (jvm : Jvm) (call : Call)
  | next (th : Thread) (reply : Reply) (falsePositive : Bool)
  /-- the transaction that saved the shop commits -/
  | commit (id : Long)

/-- A shop the filter has to know: its id has been passed on and its row is committed. -/
def State.Visible (s : State Thread Jvm) (id : Long) : Prop := id ∈ s.passed ∧ id ∈ s.committed

instance (s : State Thread Jvm) (id : Long) : Decidable (s.Visible id) :=
  inferInstanceAs (Decidable (_ ∧ _))

/-- A call asks for a visible id. -/
def State.knows (s : State Thread Jvm) : Call → Bool
  | .mightContain (some id) => decide (s.Visible id)
  | _ => false

/-- A thread enters a method. -/
def State.begin (s : State Thread Jvm) (th : Thread) (jvm : Jvm) (call : Call) :
    State Thread Jvm :=
  { s with tasks := Function.update s.tasks th (call.begin.map fun phase =>
      ⟨jvm, s.knows call, phase⟩) }

/-- What a statement of the task does. -/
def State.finish (s : State Thread Jvm) (th : Thread) (task : Task Jvm) (r : ShopBloomResult) :
    State Thread Jvm where
  added := r.added
  ready := Function.update s.ready task.jvm r.ready
  tasks := Function.update s.tasks th
    (match r.outcome with
    | .goOn phase => some { task with phase }
    | .returned _ => none
    | .answered _ _ => none)
  committed := s.committed
  passed :=
    match r.outcome with
    | .returned ids => ids ++ s.passed
    | _ => s.passed
  answers :=
    match r.outcome with
    | .answered id result => ⟨task.jvm, id, task.known, result⟩ :: s.answers
    | _ => s.answers

/-- One step; `none` where the thread is not free, or has no call. -/
def step (s : State Thread Jvm) : Action Thread Jvm → Option (State Thread Jvm)
  | .start th jvm call =>
    match s.tasks th with
    | none => some (s.begin th jvm call)
    | some _ => none
  | .next th reply falsePositive =>
    (s.tasks th).map fun task =>
      s.finish th task (task.phase.exec reply falsePositive s.added (s.ready task.jvm))
  | .commit id => some { s with committed := id :: s.committed }

/-- New instances; the filter in Redis and the shop table may have contents already. -/
def State.start (added committed : List Long) : State Thread Jvm :=
  ⟨added, fun _ => false, fun _ => none, committed, [], []⟩

/-- No visible id is missing from the filter. -/
def State.Full (s : State Thread Jvm) : Prop := ∀ id ∈ s.passed, id ∈ s.committed → id ∈ s.added

/-- The statement does not raise the flag while a visible id is missing, and does not end a call in
its `catch` block while the flag of another JVM is raised and a committed id of the call missing. -/
def GuardedPhase (s : State Thread Jvm) (jvm : Jvm) : ShopBloomPhase → Prop
  | .setReady _ => s.Full
  | .restoreReady _ initialized => initialized = true → s.Full
  | .fail ids =>
    ∀ id ∈ ids, id ∈ s.committed → id ∈ s.added ∨ ∀ other, other ≠ jvm → s.ready other = false
  | _ => True

/-- Nor is the row of an id committed that is missing beside a raised flag. -/
def Guarded (s : State Thread Jvm) : Action Thread Jvm → Prop
  | .start _ _ _ => True
  | .next th _ _ => ∀ task ∈ s.tasks th, GuardedPhase s task.jvm task.phase
  | .commit id => id ∈ s.passed → id ∈ s.added ∨ ∀ jvm, s.ready jvm = false

instance (s : State Thread Jvm) : Decidable s.Full :=
  inferInstanceAs (Decidable (∀ id ∈ s.passed, id ∈ s.committed → id ∈ s.added))

instance [Fintype Jvm] (s : State Thread Jvm) (jvm : Jvm) :
    ∀ phase, Decidable (GuardedPhase s jvm phase)
  | .setReady _ => inferInstanceAs (Decidable s.Full)
  | .restoreReady _ initialized => inferInstanceAs (Decidable (initialized = true → s.Full))
  | .fail ids =>
    inferInstanceAs (Decidable (∀ id ∈ ids, id ∈ s.committed →
      id ∈ s.added ∨ ∀ other, other ≠ jvm → s.ready other = false))
  | .tryInit _ | .addAll _ _ | .readReady _ | .ensureInitialized _ _ | .tryInitAgain _ _
  | .add _ _ | .checkReady _ | .contains _ | .failContains _ => isTrue trivial

instance [Fintype Jvm] (s : State Thread Jvm) : ∀ a, Decidable (Guarded s a)
  | .start _ _ _ => isTrue trivial
  | .next th _ _ =>
    inferInstanceAs (Decidable (∀ task ∈ s.tasks th, GuardedPhase s task.jvm task.phase))
  | .commit id =>
    inferInstanceAs (Decidable (id ∈ s.passed → id ∈ s.added ∨ ∀ jvm, s.ready jvm = false))

/-! ## The invariant -/

/-- The state as a gate whose keepers are the JVMs. -/
def State.gate (s : State Thread Jvm) : Gate Jvm Long where
  known := { id | s.Visible id }
  held := { id | id ∈ s.added }
  strict := fun jvm => s.ready jvm = true

/-- What a call has done, by where it stands. -/
def Progress (s : State Thread Jvm) (known : Bool) : ShopBloomPhase → Prop
  | .addAll ids rest => ∀ id ∈ ids, id ∈ s.added ∨ id ∈ rest
  | .setReady ids => ∀ id ∈ ids, id ∈ s.added
  | .restoreReady id _ => id ∈ s.added
  | .checkReady id => known = true → s.Visible id
  | .contains id => known = true → id ∈ s.added
  | _ => True

/-- **The invariant**: every call is where its ghost says, and no visible id has been rejected. -/
structure Inv (s : State Thread Jvm) : Prop where
  tasks : ∀ th task, s.tasks th = some task → Progress s task.known task.phase
  answers : ∀ a ∈ s.answers, a.known = true → a.result = true

variable {s t : State Thread Jvm} {a : Action Thread Jvm} {th : Thread} {task : Task Jvm}

omit [DecidableEq Thread] [DecidableEq Jvm] in
theorem Progress.mono (hadded : s.added ⊆ t.added) (hvisible : ∀ id, s.Visible id → t.Visible id)
    {known : Bool} {phase : ShopBloomPhase} (h : Progress s known phase) :
    Progress t known phase := by
  cases phase with
  | addAll ids rest => exact fun id hid => (h id hid).imp_left fun hin => hadded hin
  | setReady ids => exact fun id hid => hadded (h id hid)
  | restoreReady id initialized => exact hadded h
  | checkReady id => exact fun hk => hvisible id (h hk)
  | contains id => exact fun hk => hadded (h hk)
  | _ => trivial

omit [DecidableEq Thread] [DecidableEq Jvm] in
/-- What a statement leaves behind it, for the call itself. -/
theorem progress_exec {reply : Reply} {falsePositive : Bool} (hs : s.gate.Sound)
    (hp : Progress s task.known task.phase) {phase : ShopBloomPhase}
    (hout : (task.phase.exec reply falsePositive s.added (s.ready task.jvm)).outcome =
      .goOn phase) (ht : t.added = (task.phase.exec reply falsePositive s.added
        (s.ready task.jvm)).added) : Progress t task.known phase := by
  obtain ⟨jvm, known, old⟩ := task
  cases old with
  | tryInit ids =>
    simp only [ShopBloomPhase.exec] at hout
    split at hout <;> cases hout
    · exact fun id hid => .inr hid
    · trivial
  | addAll ids rest =>
    cases rest with
    | nil =>
      cases hout
      intro id hid
      rw [ht]
      exact (hp id hid).resolve_right (by simp)
    | cons head rest =>
      simp only [ShopBloomPhase.exec] at hout ht
      split at hout <;> cases hout
      · intro id hid
        rw [ht]
        rcases hp id hid with hin | hin
        · exact .inl (reply.subset_add head s.added hin)
        · rcases List.mem_cons.mp hin with rfl | hin
          · rename_i hreply
            rw [hreply]
            exact .inl List.mem_cons_self
          · exact .inr hin
      · trivial
  | add id initialized =>
    simp only [ShopBloomPhase.exec] at hout ht
    split at hout <;> cases hout
    · rename_i hreply
      rw [hreply] at ht
      rw [Progress, ht]
      exact List.mem_cons_self
    · trivial
  | checkReady id =>
    simp only [ShopBloomPhase.exec] at hout ht
    split at hout <;> cases hout
    · rename_i hready
      intro hk
      rw [ht]
      exact hs jvm hready (hp hk)
  | readReady id => cases hout; trivial
  | ensureInitialized id initialized =>
    simp only [ShopBloomPhase.exec] at hout
    split at hout <;> cases hout <;> trivial
  | tryInitAgain id initialized =>
    simp only [ShopBloomPhase.exec] at hout
    split at hout <;> cases hout <;> trivial
  | contains id =>
    simp only [ShopBloomPhase.exec] at hout
    split at hout <;> cases hout
    trivial
  | setReady ids => cases hout
  | restoreReady id initialized => cases hout
  | fail ids => cases hout
  | failContains id => cases hout

omit [DecidableEq Thread] [DecidableEq Jvm] in
/-- What `mightContain` returns for an id that was visible when it started. -/
theorem answer_exec {reply : Reply} {falsePositive : Bool}
    (hp : Progress s task.known task.phase) {id : Long} {result : Bool}
    (hout : (task.phase.exec reply falsePositive s.added (s.ready task.jvm)).outcome =
      .answered id result) : task.known = true → result = true := by
  obtain ⟨jvm, known, phase⟩ := task
  cases phase with
  | checkReady id =>
    simp only [ShopBloomPhase.exec] at hout
    split at hout <;> cases hout
    exact fun _ => rfl
  | contains id =>
    simp only [ShopBloomPhase.exec] at hout
    split at hout <;> cases hout
    exact fun hk => by simp [hp hk]
  | failContains id =>
    cases hout
    exact fun _ => rfl
  | addAll ids rest =>
    cases rest with
    | nil => cases hout
    | cons head rest => cases hout
  | _ => cases hout

/-! ## What a statement does to the gate -/

variable {r : ShopBloomResult}

/-- A statement that neither raises the flag nor ends a call with an id that is missing. -/
theorem sound_finish (hs : s.gate.Sound) (hadded : s.added ⊆ r.added)
    (hready : r.ready = true → s.ready task.jvm = true)
    (hvisible : ∀ id, (s.finish th task r).Visible id → s.Visible id ∨ id ∈ r.added) :
    (s.finish th task r).gate.Sound := by
  refine hs.step (fun id hid => hadded hid) fun jvm hjvm => .inl ⟨?_, hvisible⟩
  have hjvm : Function.update s.ready task.jvm r.ready jvm = true := hjvm
  by_cases h : jvm = task.jvm
  · subst h
    rw [Function.update_self] at hjvm
    exact hready hjvm
  · rw [Function.update_of_ne h] at hjvm
    exact hjvm

/-- An `initialize` or a `put` ends with the flag raised. -/
theorem sound_raise {ids : List Long} (hids : ∀ id ∈ ids, id ∈ s.added) :
    (s.finish th task ⟨s.added, true, .returned ids⟩).gate.Sound ↔
      s.Full := by
  constructor
  · intro h id hpassed hcommitted
    have hraised : (s.finish th task ⟨s.added, true, .returned ids⟩).ready task.jvm = true :=
      Function.update_self ..
    exact h task.jvm hraised ⟨List.mem_append_right ids hpassed, hcommitted⟩
  · intro h jvm _ id hid
    rcases List.mem_append.mp hid.1 with hnew | hold
    · exact hids id hnew
    · exact h id hold hid.2

/-- An `initialize` or a `put` ends in its `catch` block. -/
theorem sound_fail (hs : s.gate.Sound) {ids : List Long} :
    (s.finish th task ⟨s.added, false, .returned ids⟩).gate.Sound ↔
      ∀ id ∈ ids, id ∈ s.committed →
        id ∈ s.added ∨ ∀ other, other ≠ task.jvm → s.ready other = false := by
  constructor
  · intro h id hid hcommitted
    by_cases hin : id ∈ s.added
    · exact .inl hin
    · refine .inr fun other hother => Bool.eq_false_iff.mpr fun hready => hin ?_
      have hstrict : (s.finish th task ⟨s.added, false, .returned ids⟩).ready other = true := by
        rw [← hready]
        exact Function.update_of_ne hother ..
      exact h other hstrict ⟨List.mem_append_left s.passed hid, hcommitted⟩
  · intro h jvm hjvm id hid
    have hjvm : Function.update s.ready task.jvm false jvm = true := hjvm
    have hother : jvm ≠ task.jvm := by
      rintro rfl
      rw [Function.update_self] at hjvm
      cases hjvm
    rw [Function.update_of_ne hother] at hjvm
    rcases List.mem_append.mp hid.1 with hnew | hold
    · rcases h id hnew hid.2 with hin | hdown
      · exact hin
      · exact absurd ((hdown jvm hother).symm.trans hjvm) (by simp)
    · exact hs jvm hjvm ⟨hold, hid.2⟩

omit [DecidableEq Thread] [DecidableEq Jvm] in
/-- A row is committed. -/
theorem sound_commit (hs : s.gate.Sound) {id : Long} :
    (State.gate { s with committed := id :: s.committed }).Sound ↔
      (id ∈ s.passed → id ∈ s.added ∨ ∀ jvm, s.ready jvm = false) := by
  constructor
  · intro h hpassed
    by_cases hin : id ∈ s.added
    · exact .inl hin
    · exact .inr fun jvm => Bool.eq_false_iff.mpr fun hready =>
        hin (h jvm hready ⟨hpassed, List.mem_cons_self⟩)
  · intro h jvm hready other hother
    have hready : s.ready jvm = true := hready
    rcases List.mem_cons.mp hother.2 with rfl | hold
    · rcases h hother.1 with hin | hdown
      · exact hin
      · exact absurd ((hdown jvm).symm.trans hready) (by simp)
    · exact hs jvm hready ⟨hother.1, hold⟩

/-- A statement that goes on, or answers. -/
theorem sound_quiet (hs : s.gate.Sound) (hadded : s.added ⊆ r.added)
    (hready : r.ready = true → s.ready task.jvm = true)
    (hout : ∀ ids, r.outcome ≠ .returned ids) : (s.finish th task r).gate.Sound := by
  refine sound_finish hs hadded hready fun id hid => .inl ⟨?_, hid.2⟩
  have hpassed := hid.1
  unfold State.finish at hpassed
  cases hr : r.outcome with
  | returned ids => exact absurd hr (hout ids)
  | goOn phase =>
    rw [hr] at hpassed
    exact hpassed
  | answered id result =>
    rw [hr] at hpassed
    exact hpassed

/-- **A step keeps the gate sound exactly if it is guarded.** -/
theorem sound_step (hi : Inv s) (hs : s.gate.Sound) (hstep : step s a = some t) :
    t.gate.Sound ↔ Guarded s a := by
  cases a with
  | start th jvm call =>
    simp only [step] at hstep
    split at hstep <;> cases hstep
    exact ⟨fun _ => trivial, fun _ => hs⟩
  | commit id =>
    cases hstep
    exact sound_commit hs
  | next th reply falsePositive =>
    obtain ⟨task, htask, rfl⟩ := Option.map_eq_some_iff.mp hstep
    have hp := hi.tasks th task htask
    have hadded := task.phase.subset_exec reply falsePositive s.added (s.ready task.jvm)
    have hguarded : Guarded s (.next th reply falsePositive) ↔
        GuardedPhase s task.jvm task.phase := by
      simp only [Guarded, htask, Option.mem_some_iff, forall_eq']
    rw [hguarded]
    obtain ⟨jvm, known, phase⟩ := task
    cases phase with
    | setReady ids => exact sound_raise hp
    | fail ids => exact sound_fail hs
    | restoreReady id initialized =>
      cases initialized with
      | true =>
        refine (sound_raise fun other hother => ?_).trans ⟨fun h _ => h, fun h => h rfl⟩
        rw [List.mem_singleton.mp hother]
        exact hp
      | false =>
        refine ⟨fun _ h => absurd h (by simp), fun _ => ?_⟩
        refine sound_finish hs hadded (fun h => by cases h) ?_
        intro other hother
        rcases List.mem_cons.mp hother.1 with rfl | hold
        · exact .inr hp
        · exact .inl ⟨hold, hother.2⟩
    | addAll ids rest =>
      refine ⟨fun _ => trivial, fun _ => sound_quiet hs hadded ?_ ?_⟩
      · cases rest with
        | nil => exact fun h => h
        | cons head rest => exact fun h => h
      · cases rest with
        | nil => exact fun _ h => by cases h
        | cons head rest => exact fun _ h => by cases h
    | checkReady id =>
      refine ⟨fun _ => trivial, fun _ => sound_quiet hs hadded (fun h => h) fun ids h => ?_⟩
      simp only [ShopBloomPhase.exec] at h
      split at h <;> cases h
    | contains id =>
      refine ⟨fun _ => trivial, fun _ => sound_quiet hs hadded (fun h => h) fun ids h => ?_⟩
      simp only [ShopBloomPhase.exec] at h
      split at h <;> cases h
    | failContains id =>
      exact ⟨fun _ => trivial, fun _ => sound_quiet hs hadded (fun h => by cases h)
        fun ids h => by cases h⟩
    | _ =>
      exact ⟨fun _ => trivial, fun _ => sound_quiet hs hadded (fun h => h)
        fun ids h => by cases h⟩

/-! ## Runs -/

theorem mem_finish_passed {id : Long} (h : id ∈ s.passed) : id ∈ (s.finish th task r).passed := by
  unfold State.finish
  cases r.outcome with
  | returned ids => exact List.mem_append_right ids h
  | goOn phase => exact h
  | answered id result => exact h

theorem visible_step (hstep : step s a = some t) {id : Long} (h : s.Visible id) : t.Visible id := by
  cases a with
  | start th jvm call =>
    simp only [step] at hstep
    split at hstep <;> cases hstep
    exact h
  | commit other =>
    cases hstep
    exact ⟨h.1, List.mem_cons_of_mem other h.2⟩
  | next th reply falsePositive =>
    obtain ⟨task, htask, rfl⟩ := Option.map_eq_some_iff.mp hstep
    exact ⟨mem_finish_passed h.1, h.2⟩

theorem inv_step (hs : s.gate.Sound) (hi : Inv s) (hstep : step s a = some t) : Inv t := by
  have hvisible : ∀ id, s.Visible id → t.Visible id := fun id h => visible_step hstep h
  cases a with
  | start th jvm call =>
    simp only [step] at hstep
    split at hstep <;> cases hstep
    refine ⟨fun other task htask => ?_, hi.answers⟩
    by_cases hth : other = th
    · subst hth
      obtain ⟨phase, hphase, rfl⟩ := Option.map_eq_some_iff.mp
        ((Function.update_self other _ s.tasks).symm.trans htask)
      cases call with
      | initializeIds shopIds =>
        cases hphase
        trivial
      | put shopId =>
        obtain ⟨id, -, rfl⟩ := Option.map_eq_some_iff.mp hphase
        trivial
      | mightContain shopId =>
        obtain ⟨id, rfl, rfl⟩ := Option.map_eq_some_iff.mp hphase
        exact fun hknown => of_decide_eq_true hknown
    · exact hi.tasks other task ((Function.update_of_ne hth _ s.tasks).symm.trans htask)
  | commit id =>
    cases hstep
    refine ⟨fun th task htask => ?_, hi.answers⟩
    exact Progress.mono (s := s) (t := { s with committed := id :: s.committed })
      (List.Subset.refl s.added) hvisible (hi.tasks th task htask)
  | next th reply falsePositive =>
    obtain ⟨task, htask, rfl⟩ := Option.map_eq_some_iff.mp hstep
    have hadded := task.phase.subset_exec reply falsePositive s.added (s.ready task.jvm)
    have hp := hi.tasks th task htask
    refine ⟨fun other task' htask' => ?_, fun answer hanswer => ?_⟩
    · by_cases hth : other = th
      · subst hth
        have hself := (Function.update_self other _ s.tasks).symm.trans htask'
        split at hself <;> cases hself
        rename_i phase hout
        exact progress_exec hs hp hout rfl
      · exact (hi.tasks other task' ((Function.update_of_ne hth _ s.tasks).symm.trans htask')).mono
          hadded hvisible
    · unfold State.finish at hanswer
      simp only at hanswer
      split at hanswer
      · rename_i id result hout
        rcases List.mem_cons.mp hanswer with rfl | hold
        · exact answer_exec hp hout
        · exact hi.answers answer hold
      · exact hi.answers answer hanswer

omit [DecidableEq Thread] [DecidableEq Jvm] in
theorem inv_start (added committed : List Long) :
    Inv (State.start added committed : State Thread Jvm) :=
  ⟨fun _ _ h => absurd h (by simp [State.start]), fun _ h => absurd h List.not_mem_nil⟩

omit [DecidableEq Thread] [DecidableEq Jvm] in
theorem sound_start (added committed : List Long) :
    (State.start added committed : State Thread Jvm).gate.Sound :=
  Gate.sound_of_open fun _ h => by cases h

/-- **No JVM hides a committed shop while the steps are guarded.** A `mightContain` that starts
after a call given the id has ended, successfully or not, and after the id's row is committed
returns true. -/
theorem never_hides {added committed : List Long} {as : List (Action Thread Jvm)}
    (hP : Along step Guarded (.start added committed) as)
    (hrun : run step (.start added committed) as = some t) :
    ∀ answer ∈ t.answers, answer.known = true → answer.result = true := by
  have hpreserves : Preserves step Guarded
      (fun s : State Thread Jvm => Inv s ∧ s.gate.Sound) := by
    rintro s a t hguarded ⟨hi, hs⟩ hstep
    exact ⟨inv_step hs hi hstep, (sound_step hi hs hstep).mpr hguarded⟩
  exact (run_invariant hpreserves hP ⟨inv_start added committed, sound_start added committed⟩
    hrun).1.answers

/-- A step that is not guarded leaves a JVM on which a `mightContain` of a visible id that starts
right after it can return false. -/
theorem hides_of_not_guarded (hi : Inv s) (hs : s.gate.Sound) (hstep : step s a = some t)
    (hguarded : ¬Guarded s a) (hidle : t.tasks th = none) :
    ∃ jvm id, t.Visible id ∧
      (run step t [.start th jvm (.mightContain (some id)), .next th .returns false,
        .next th .returns false]).map (·.answers) =
          some (⟨jvm, id, true, false⟩ :: t.answers) := by
  have hunsound : ¬t.gate.Sound := fun h => hguarded ((sound_step hi hs hstep).mp h)
  simp only [Gate.Sound, not_forall, Set.not_subset] at hunsound
  obtain ⟨jvm, hready, id, hvisible, hmissing⟩ := hunsound
  have hready : t.ready jvm = true := hready
  have hmissing : id ∉ t.added := hmissing
  have hvisible : t.Visible id := hvisible
  -- the call starts, finds the flag raised and asks the filter
  refine ⟨jvm, id, hvisible, ?_⟩
  simp [run, step, hidle, State.begin, State.knows, Call.begin, State.finish, ShopBloomPhase.exec,
    hready, hmissing, hvisible]

/-! ## The defect -/

/-- Two calls of `initialize` without ids on two JVMs, then a `put` of 1 on the first whose `add`
throws, the commit of its row, and a `mightContain` on the second. -/
def failedPut (first second : Jvm) (th : Thread) : List (Action Thread Jvm) :=
  [.start th first (.initializeIds none), .next th .returns false, .next th .returns false,
    .next th .returns false,
    .start th second (.initializeIds none), .next th .returns false, .next th .returns false,
    .next th .returns false,
    .start th first (.put (some 1)), .next th .returns false, .next th .returns false,
    .next th (.throws false) false, .next th .returns false, .commit 1,
    .start th second (.mightContain (some 1)), .next th .returns false, .next th .returns false]

/-- The JVM whose `add` failed lets the id through, the other one hides it. -/
theorem hides :
    ¬∀ (as : List (Action ℕ ℕ)) (t : State ℕ ℕ), run step (.start [] []) as = some t →
      ∀ answer ∈ t.answers, answer.known = true → answer.result = true := by
  intro h
  obtain ⟨t, ht, hanswers⟩ := Option.map_eq_some_iff.mp
    (show (run step (.start [] []) (failedPut 0 1 0)).map (·.answers) =
      some [(⟨1, 1, true, false⟩ : Answer ℕ)] by decide +kernel)
  exact absurd (h _ t ht ⟨1, 1, true, false⟩ (hanswers ▸ List.mem_cons_self) rfl) (by simp)

/-- The same with a `put` that succeeds, on a JVM whose flag is still down. -/
def laterPut (first second : Jvm) (th : Thread) : List (Action Thread Jvm) :=
  [.start th second (.initializeIds none), .next th .returns false, .next th .returns false,
    .next th .returns false,
    .start th first (.put (some 1)), .next th .returns false, .next th .returns false,
    .next th .returns false, .next th .returns false, .next th .returns false, .commit 1,
    .start th second (.mightContain (some 1)), .next th .returns false, .next th .returns false]

/-- A guarded run in which a `put` on one JVM is followed by a `mightContain` on another. -/
theorem never_hides_put :
    ∃ t : State ℕ Bool, t.answers = [⟨true, 1, true, true⟩] ∧
      ∀ answer ∈ t.answers, answer.known = true → answer.result = true := by
  obtain ⟨t, ht, hanswers⟩ := Option.map_eq_some_iff.mp
    (show (run step (.start [] []) (laterPut false true (0 : ℕ))).map (·.answers) =
      some [(⟨true, 1, true, true⟩ : Answer Bool)] by decide +kernel)
  exact ⟨t, hanswers, never_hides (by decide +kernel) ht⟩

end Hmdp.ShopBloom
