import Hmdp.Lib.Guarded
import Hmdp.Lib.Machine
import Hmdp.Model.CacheClient

/-!
# The mutex of `CacheClient`

Any number of threads are in `queryWithMutex` for one id beside each other; one step is one
statement of one of them, and the cached value may change at any time (it expires, or somebody else
writes it). The lock is a key with a lease of ten seconds; that it does not run out on a call in its
rebuild is a condition on the run (`LeaseHolds`).

The `finally` deletes the lock whether the frame has set it or not. The frames of a waiting call
that have slept delete it after their inner call, when another call may be in its rebuild: two
rebuilds run beside each other, and then delete one another's locks. As long as such a frame finds
no lock, the lock is held by exactly the call in its rebuild (`Guarded`).

* `guarded_step`: one statement.
* **`mutex_excludes_iff`**: each lock is deleted by the call that has set it, and at most one call
  is in the fallback, exactly if no frame that has slept finds a lock in its `finally`.
-/

namespace Hmdp.CacheClient

open Hmdp.Lib Hmdp.Model

variable {Thread R : Type} [DecidableEq Thread]

/-- The store and the calls under way. -/
structure State (Thread R : Type) where
  store : MutexStore Thread
  calls : Thread → Option (MutexCall R)

/-- The steps: a call starts, goes on or ends, the lock's TTL runs out, or the entry changes. -/
inductive Action (Thread R : Type) where
  | queryWithMutex (th : Thread) (keyPrefix : Text)
  /-- the next statement, or the return -/
  | next (th : Thread)
  | wake (th : Thread) (interrupted : Bool)
  | dbFallback (th : Thread) (result : Option (Option R))
  | lockExpires
  | cacheChanges (keyPrefix : Text) (value : Option Text)

/-- No call, and no lock. -/
def State.init (cache : Text → Option Text) : State Thread R := ⟨⟨cache, none⟩, fun _ => none⟩

/-- A call begins, moves or ends. -/
def State.withCall (s : State Thread R) (th : Thread) (call : Option (MutexCall R)) :
    State Thread R :=
  { s with calls := Function.update s.calls th call }

section

variable (isBlank : Text → Bool) (json : JsonUtil R)

/-- One step; `none` where the call is not where the action needs it. -/
def step (s : State Thread R) : Action Thread R → Option (State Thread R)
  | .queryWithMutex th keyPrefix =>
    if (s.calls th).isNone then some (s.withCall th (some (.begin keyPrefix))) else none
  | .next th =>
    (s.calls th).bind fun call =>
      match call.phase with
      | .returning _ => some (s.withCall th none)
      | _ => (call.next isBlank json th s.store).map fun r =>
          { s with store := r.1 }.withCall th (some r.2)
  | .wake th interrupted =>
    (s.calls th).bind fun call =>
      (call.wake interrupted).map fun call' => s.withCall th (some call')
  | .dbFallback th result =>
    (s.calls th).bind fun call =>
      (call.fallback result).map fun call' => s.withCall th (some call')
  | .lockExpires => s.store.lock.map fun _ => { s with store := { s.store with lock := none } }
  | .cacheChanges keyPrefix value => some { s with store := s.store.setCache keyPrefix value }

end

/-! ## What is claimed, and when -/

/-- The call is in its rebuild: from a `tryLock` that has set the lock to its `unlock`. -/
def inRebuild : Option (MutexCall R) → Bool
  | some ⟨_, _, .dbFallback⟩ => true
  | some ⟨_, _, .setNull⟩ => true
  | some ⟨_, _, .set _⟩ => true
  | some ⟨_, _, .unlock true _⟩ => true
  | _ => false

/-- `dbFallback` is being executed. -/
def inFallback : Option (MutexCall R) → Bool
  | some ⟨_, _, .dbFallback⟩ => true
  | _ => false

/-- The `finally` is next. -/
def unlocks : Option (MutexCall R) → Bool
  | some ⟨_, _, .unlock _ _⟩ => true
  | _ => false

/-- The `finally` of a frame that has not set the lock is next. -/
def unlocksUnset : Option (MutexCall R) → Bool
  | some ⟨_, _, .unlock false _⟩ => true
  | _ => false

/-- At most one call is in the fallback. -/
def Excludes (s : State Thread R) : Prop :=
  ∀ th th', inFallback (s.calls th) = true → inFallback (s.calls th') = true → th = th'

/-- A lock that is deleted in the step was set by the call that deletes it. -/
def DeletesOwn (s : State Thread R) : Action Thread R → Prop
  | .next th => unlocks (s.calls th) = true → ∀ setter ∈ s.store.lock, setter = th
  | _ => True

/-- The lock does not run out on a call in its rebuild. -/
def LeaseHolds (s : State Thread R) : Action Thread R → Prop
  | .lockExpires => ∀ setter ∈ s.store.lock, inRebuild (s.calls setter) = false
  | _ => True

/-- **The condition on a step**: a frame that has not set the lock finds none in its `finally`. -/
def FindsNoLock (s : State Thread R) : Action Thread R → Prop
  | .next th => unlocksUnset (s.calls th) = true → s.store.lock = none
  | _ => True

instance (s : State Thread R) (a : Action Thread R) : Decidable (FindsNoLock s a) := by
  cases a <;> unfold FindsNoLock <;> infer_instance

/-- The lock is held by exactly the call in its rebuild. -/
def Inv (s : State Thread R) : Prop := Guarded inRebuild s.store.lock s.calls

/-! ## One statement -/

section

variable {isBlank : Text → Bool} {json : JsonUtil R} {s t : State Thread R} {a : Action Thread R}
  {th : Thread} {call call' : MutexCall R} {store' : MutexStore Thread}

omit [DecidableEq Thread] in
theorem inv_init (cache : Text → Option Text) : Inv (State.init cache : State Thread R) :=
  Guarded.of_forall fun _ => rfl

theorem inRebuild_leave (call : MutexCall R) (outcome : Except MutexError (Option R)) :
    inRebuild (some (call.leave outcome)) = false := by
  unfold MutexCall.leave
  cases call.callers <;> rfl

omit [DecidableEq Thread] in
theorem inRebuild_of_inFallback {call : Option (MutexCall R)} (h : inFallback call = true) :
    inRebuild call = true := by
  unfold inFallback at h
  split at h
  · rfl
  · cases h

omit [DecidableEq Thread] in
/-- The calls in their fallback hold the lock. -/
theorem excludes_of_inv (h : Inv s) : Excludes s := fun _ _ hth hth' =>
  h.exclusive (inRebuild_of_inFallback hth) (inRebuild_of_inFallback hth')

/-- **A statement of a call.** -/
theorem guarded_next (h : Inv s) (hcall : s.calls th = some call)
    (hunset : unlocksUnset (some call) = true → s.store.lock = none)
    (hnext : call.next isBlank json th s.store = some (store', call')) :
    Guarded inRebuild store'.lock (Function.update s.calls th (some call')) := by
  obtain ⟨keyPrefix, callers, phase⟩ := call
  unfold MutexCall.next at hnext
  cases phase with
  | get =>
    have hout : inRebuild (s.calls th) = false := by rw [hcall]; rfl
    simp only at hnext
    split at hnext
    · cases hnext
      exact h.stay hout.symm
    split at hnext
    · cases hnext
      exact h.stay ((inRebuild_leave _ _).trans hout.symm)
    split at hnext
    · cases hnext
      exact h.stay ((inRebuild_leave _ _).trans hout.symm)
    · cases hnext
      exact h.stay ((inRebuild_leave _ _).trans hout.symm)
  | tryLock =>
    simp only at hnext
    split at hnext
    · rename_i hfree
      cases hnext
      have hguard : Guarded inRebuild none s.calls := hfree ▸ h
      exact hguard.enter rfl
    · cases hnext
      exact h.stay (by rw [hcall]; rfl)
  | sleep => cases hnext
  | dbFallback => cases hnext
  | setNull =>
    cases hnext
    exact h.stay (by rw [hcall]; rfl)
  | set r =>
    cases hnext
    exact h.stay (by rw [hcall]; rfl)
  | unlock isLock outcome =>
    cases hnext
    cases isLock with
    | true => exact h.leave (by rw [hcall]; rfl) (inRebuild_leave _ _)
    | false =>
      have hguard : Guarded inRebuild none s.calls := hunset rfl ▸ h
      exact hguard.stay ((inRebuild_leave _ _).trans (by rw [hcall]; rfl))
  | returning outcome => cases hnext

/-- **The step lemma.** -/
theorem guarded_step (ha : LeaseHolds s a ∧ FindsNoLock s a) (h : Inv s)
    (hstep : step isBlank json s a = some t) : Inv t := by
  obtain ⟨hlease, hfinds⟩ := ha
  cases a with
  | queryWithMutex th keyPrefix =>
    simp only [step] at hstep
    split at hstep
    · rename_i hfree
      cases hstep
      exact h.stay (by rw [Option.isNone_iff_eq_none.mp hfree]; rfl)
    · cases hstep
  | next th =>
    obtain ⟨call, hcall, hstep⟩ := Option.bind_eq_some_iff.mp hstep
    have hunset : unlocksUnset (some call) = true → s.store.lock = none := hcall ▸ hfinds
    split at hstep
    · rename_i outcome hphase
      cases hstep
      refine h.stay ?_
      obtain ⟨keyPrefix, callers, phase⟩ := call
      cases hphase
      rw [hcall]
      rfl
    · obtain ⟨⟨store', call'⟩, hnext, hstep⟩ := Option.map_eq_some_iff.mp hstep
      cases hstep
      exact guarded_next (s := s) h hcall hunset hnext
  | wake th interrupted =>
    obtain ⟨call, hcall, hstep⟩ := Option.bind_eq_some_iff.mp hstep
    obtain ⟨call', hwake, hstep⟩ := Option.map_eq_some_iff.mp hstep
    cases hstep
    refine h.stay ?_
    obtain ⟨keyPrefix, callers, phase⟩ := call
    rw [hcall]
    cases phase with
    | sleep => cases interrupted <;> cases hwake <;> rfl
    | _ => cases hwake
  | dbFallback th result =>
    obtain ⟨call, hcall, hstep⟩ := Option.bind_eq_some_iff.mp hstep
    obtain ⟨call', hresult, hstep⟩ := Option.map_eq_some_iff.mp hstep
    cases hstep
    refine h.stay ?_
    obtain ⟨keyPrefix, callers, phase⟩ := call
    rw [hcall]
    cases phase with
    | dbFallback =>
      rcases result with _ | _ | r <;> cases hresult <;> rfl
    | _ => cases hresult
  | lockExpires =>
    -- nobody is in its rebuild without the lock
    obtain ⟨setter, hlock, hstep⟩ := Option.map_eq_some_iff.mp hstep
    have hin := (h setter).mp hlock
    rw [hlease setter hlock] at hin
    cases hin
  | cacheChanges keyPrefix value =>
    cases hstep
    exact h

omit [DecidableEq Thread] in
/-- Where the call in its rebuild holds the lock, whoever deletes another's has not set one. -/
theorem deletesOwn_iff (h : Inv s) : DeletesOwn s a ↔ FindsNoLock s a := by
  cases a with
  | next th =>
    simp only [DeletesOwn, FindsNoLock]
    cases hcall : s.calls th with
    | none => exact iff_of_true nofun nofun
    | some call =>
      obtain ⟨keyPrefix, callers, phase⟩ := call
      cases phase with
      | unlock isLock outcome =>
        cases isLock with
        | true =>
          have hlock : s.store.lock = some th := (h th).mpr (by rw [hcall]; rfl)
          refine iff_of_true (fun _ setter hsetter => ?_) nofun
          exact Option.some.inj (hsetter.symm.trans hlock)
        | false =>
          constructor
          · intro hown _
            by_contra hlock
            obtain ⟨setter, hsetter⟩ := Option.ne_none_iff_exists'.mp hlock
            have hin := (h setter).mp hsetter
            rw [hown rfl setter hsetter, hcall] at hin
            cases hin
          · intro hnone _ setter hsetter
            cases (hnone rfl).symm.trans hsetter
      | _ => exact iff_of_true nofun nofun
  | _ => exact Iff.rfl

end

/-! ## Runs -/

/-- **The mutex.** In a run in which no lock runs out on a call in its rebuild: every lock is
deleted by the call that has set it and at most one call is in the fallback in every state, exactly
if no frame that has not set the lock finds one in its `finally`. -/
theorem mutex_excludes_iff (isBlank : Text → Bool) (json : JsonUtil R)
    {cache : Text → Option Text} {actions : List (Action Thread R)}
    (hlease : Along (step isBlank json) LeaseHolds (.init cache) actions) :
    (Along (step isBlank json) DeletesOwn (.init cache) actions ∧
      ∀ before t, before <+: actions →
        run (step isBlank json) (.init cache) before = some t → Excludes t) ↔
      Along (step isBlank json) FindsNoLock (.init cache) actions := by
  have hkeeps : Preserves (step isBlank json)
      (fun (s : State Thread R) a => LeaseHolds s a ∧ FindsNoLock s a) Inv :=
    fun _ _ _ ha h hstep => guarded_step ha h hstep
  have hown : Along (step isBlank json) DeletesOwn (.init cache) actions ↔
      Along (step isBlank json) FindsNoLock (.init cache) actions := by
    have hboth : Along (step isBlank json) (fun s a => LeaseHolds s a ∧ FindsNoLock s a)
          (.init cache) actions ↔
        Along (step isBlank json) (fun s a => LeaseHolds s a ∧ DeletesOwn s a)
          (.init cache) actions :=
      along_congr (fun s a h => and_congr_right fun _ => (deletesOwn_iff h).symm) hkeeps
        (inv_init cache)
    rw [along_and, along_and] at hboth
    simpa only [hlease, true_and] using hboth.symm
  rw [hown, and_iff_left_iff_imp]
  intro hfinds before t hbefore hrun'
  exact excludes_of_inv (run_invariant hkeeps
    (along_take (along_and.mpr ⟨hlease, hfinds⟩) hbefore) (inv_init cache) hrun')

/-- Texts that are their own JSON. -/
def plainJson : JsonUtil Text := ⟨id, some⟩

/-- A call that waits for another's rebuild and then finds its value. -/
def waitsForRebuild : List (Action (Fin 3) Text) :=
  [.queryWithMutex 0 [], .next 0, .next 0, .queryWithMutex 1 [], .next 1, .next 1,
    .dbFallback 0 (some (some ['a'])), .next 0, .next 0, .next 0, .wake 1 false, .next 1, .next 1,
    .next 1]

theorem mutex_excludes_waitsForRebuild :
    Along (step List.isEmpty plainJson) DeletesOwn (.init fun _ => none) waitsForRebuild ∧
      ∀ before t, before <+: waitsForRebuild →
        run (step List.isEmpty plainJson) (.init fun _ => none) before = some t → Excludes t :=
  (mutex_excludes_iff List.isEmpty plainJson
    (along_of_forall (by simp [waitsForRebuild, LeaseHolds]) _)).mpr (by decide +kernel)

/-- A call is interrupted while it waits: its `finally` deletes the lock, and a third call is in the
fallback beside the first. -/
def interruptedWhileWaiting : List (Action (Fin 3) Text) :=
  [.queryWithMutex 0 [], .next 0, .next 0, .queryWithMutex 1 [], .next 1, .next 1, .wake 1 true,
    .next 1, .queryWithMutex 2 [], .next 2, .next 2]

theorem two_calls_in_fallback :
    ¬ ∀ (actions : List (Action (Fin 3) Text)) (s : State (Fin 3) Text),
      Along (step List.isEmpty plainJson) LeaseHolds (.init fun _ => none) actions →
        run (step List.isEmpty plainJson) (.init fun _ => none) actions = some s → Excludes s := by
  intro h
  obtain ⟨s, hrun, hend⟩ := Option.map_eq_some_iff.mp
    (show (run (step List.isEmpty plainJson) (State.init fun _ => none)
      interruptedWhileWaiting).map (fun s =>
        decide (inFallback (s.calls 0) = true ∧ inFallback (s.calls 2) = true)) = some true by
      decide +kernel)
  obtain ⟨hfirst, hthird⟩ := of_decide_eq_true hend
  have hsame := h interruptedWhileWaiting s
    (along_of_forall (by simp [interruptedWhileWaiting, LeaseHolds]) _) hrun 0 2 hfirst hthird
  revert hsame
  decide

end Hmdp.CacheClient
