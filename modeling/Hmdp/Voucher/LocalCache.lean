import Hmdp.Voucher.Metadata

/-!
# The local caches of a voucher after an invalidation

A query reads the hash and fills its JVM's cache in two steps, and no lock keeps an update and the
consumer of its invalidation out between them. So an entry read before an update may come after the
invalidation and stay. The other calls that fill the cache, updates and rebuilds, have the same gap.
And an update writes the hash before it commits: what a query on another JVM has read of one that is
rolled back stays there, as no event is sent for it.

A value is as new as an update if the rows have had it since, or an update sets it that is still
under way (`AtLeastAsNew`). Where the hash is kept as in `Isolated`, no call of the JVM holds an
older entry when an invalidation is consumed, and no JVM has a value of a rolled-back update when it
ends (`Fenced`), whatever a JVM serves is at least as new as the updates whose events it has
consumed.

* `next_sources`: where the values of a statement come from.
* **`query_at_least_as_new`**: the result for queries.
* `older_entry_returned`, `undone_entry_returned`: the schedules with the two gaps.
-/

namespace Hmdp.Voucher

open Hmdp.Lib Hmdp.Model

variable {Thread Jvm : Type}

/-! ## At least as new -/

/-- The fields of the rows, and of the hash. -/
inductive ActivityField where
  | beginTime
  | endTime
  | status
  deriving DecidableEq

instance : Fintype ActivityField :=
  ⟨{.beginTime, .endTime, .status}, fun f => by cases f <;> decide⟩

/-- What the rows have in the field. -/
def fieldOf (a : Activity) : ActivityField → ℤ
  | .beginTime => a.beginTime
  | .endTime => a.endTime
  | .status => a.status

/-- What the update sets the field to. -/
def patchOf (u : SeckillVoucherUpdateDTO) : ActivityField → Option ℤ
  | .beginTime => u.beginTime
  | .endTime => u.endTime
  | .status => u.status

/-- Each field is that of the rows since the update with this number, or is set by an update under
way that has written the hash since. -/
def AtLeastAsNew (history : List Activity)
    (attempts : Thread → Option (ℕ × SeckillVoucherUpdateDTO)) (version : ℕ)
    (a : Activity) : Prop :=
  ∀ f, (∃ b ∈ history.drop (version - 1), fieldOf b f = fieldOf a f) ∨
    ∃ th, ∃ x ∈ attempts th, version ≤ x.1 ∧ patchOf x.2 f = some (fieldOf a f)

instance [Fintype Thread] (history : List Activity)
    (attempts : Thread → Option (ℕ × SeckillVoucherUpdateDTO)) (version : ℕ) (a : Activity) :
    Decidable (AtLeastAsNew history attempts version a) :=
  inferInstanceAs (Decidable (∀ _, _))

section

variable {history : List Activity} {attempts : Thread → Option (ℕ × SeckillVoucherUpdateDTO)}
  {version version' : ℕ} {a b : Activity} {u : SeckillVoucherUpdateDTO} {th : Thread}

theorem fieldOf_apply (f : ActivityField) :
    fieldOf (u.apply a) f = (patchOf u f).getD (fieldOf a f) := by
  cases f <;> rfl

theorem AtLeastAsNew.mono (h : AtLeastAsNew history attempts version a) (hle : version' ≤ version) :
    AtLeastAsNew history attempts version' a := by
  intro f
  rcases h f with ⟨b, hb, hf⟩ | ⟨th, x, hx, hn, hf⟩
  · have hb : b ∈ history.drop (version' - 1) :=
      (List.drop_subset_drop_left history (Nat.sub_le_sub_right hle 1)) hb
    exact Or.inl ⟨b, hb, hf⟩
  · exact Or.inr ⟨th, x, hx, hle.trans hn, hf⟩

/-- The newest rows. -/
theorem atLeastAsNew_of_getLast (h : history.getLast? = some a) :
    AtLeastAsNew history attempts history.length a := by
  intro f
  refine Or.inl ⟨a, ?_, rfl⟩
  obtain ⟨init, rfl⟩ := List.getLast?_eq_some_iff.mp h
  simp

/-- An update of the newest rows that is under way. -/
theorem atLeastAsNew_apply (h : history.getLast? = some a)
    (hu : attempts th = some (history.length, u)) :
    AtLeastAsNew history attempts history.length (u.apply a) := by
  intro f
  cases hf : patchOf u f with
  | none =>
    have hsame : fieldOf (u.apply a) f = fieldOf a f := by rw [fieldOf_apply, hf]; rfl
    rw [hsame]
    exact atLeastAsNew_of_getLast h f
  | some value =>
    right
    refine ⟨th, _, hu, le_rfl, ?_⟩
    rw [fieldOf_apply, hf]
    rfl

end

/-! ## Where values come from -/

/-- What the next statement writes to the hash. -/
def Work.writes : Work → Option Activity
  | .update u (.putAll old) => if (u.apply old).valid then some (u.apply old) else none
  | .update _ (.restore old) => if old.valid then some old else none
  | .rebuild (.load (.putAll read)) => if read.valid then some read else none
  | .query _ (.load (.putAll read)) => if read.valid then some read else none
  | _ => none

/-- What the next statement puts into the JVM's cache. -/
def Work.held : Work → Option Activity
  | .update u (.localPut old) => some (u.apply old)
  | .update _ (.restoreLocal old) => some old
  | .rebuild (.load (.localPut read)) => some read
  | .query _ (.localPut found) => some found
  | .query _ (.load (.localPut read)) => some read
  | _ => none

/-- What the compensation that ends with the next statement puts into its JVM's cache. -/
def Work.restored : Work → Option Activity
  | .update _ (.restoreLocal old) => some old
  | _ => none

/-- When the query has started and what it is about to return. -/
def Work.result : Work → Option (ℕ × Activity)
  | .query since (.load (.done read)) => some (since, read)
  | .query since (.returning (some a)) => some (since, a)
  | _ => none

/-- The newest update whose event the query's JVM had consumed at its start. -/
def Work.since : Work → ℕ
  | .query since _ => since
  | _ => 0

theorem restored_eq {work : Work} {old : Activity} (h : work.restored = some old) :
    ∃ u, work = .update u (.restoreLocal old) := by
  unfold Work.restored at h
  split at h
  · cases h
    exact ⟨_, rfl⟩
  · cases h

/-- A statement of `task` from `store` to `store'`, and the work it leaves. -/
structure Sources [DecidableEq Jvm] (task : Task Jvm) (store store' : VoucherStore Thread Jvm)
    (work : Work) : Prop where
  hash : ∀ a, store'.activity = some a → store.activity = some a ∨ task.work.writes = some a
  localCache : ∀ jvm a, store'.localCache jvm = some a →
    store.localCache jvm = some a ∨ (jvm = task.jvm ∧ task.work.held = some a)
  held : ∀ a, work.held = some a → store'.activity = some a
  since : work.since = task.work.since
  result : ∀ since a, work.result = some (since, a) →
    since = task.work.since ∧ (task.work.result = some (since, a) ∨
      store.localCache task.jvm = some a ∨ task.work.held = some a ∨ store.activity = some a)

variable [DecidableEq Jvm] {store store' : VoucherStore Thread Jvm} {jvm : Jvm}
  {locked expired : Bool}

theorem localCache_update {jvm' : Jvm} {a : Activity} {entry : Option Activity}
    (h : Function.update store.localCache jvm entry jvm' = some a) :
    store.localCache jvm' = some a ∨ (jvm' = jvm ∧ entry = some a) := by
  rw [Function.update_apply] at h
  split at h
  · rename_i hj
    exact Or.inr ⟨hj, h⟩
  · exact Or.inl h

/-- A statement that leaves the hash and the local caches, and holds nothing. -/
theorem sources_quiet {task : Task Jvm} {work : Work} (hactivity : store'.activity = store.activity)
    (hlocal : store'.localCache = store.localCache) (hheld : work.held = none)
    (hsince : work.since = task.work.since) (hresult : work.result = none) :
    Sources task store store' work := by
  refine ⟨fun a ha => Or.inl (hactivity ▸ ha), fun _ a ha => Or.inl (hlocal ▸ ha), fun a ha => ?_,
    hsince, fun since a ha => ?_⟩
  · rw [hheld] at ha
    cases ha
  · rw [hresult] at ha
    cases ha

/-- A statement that puts what the call holds into the local cache. -/
theorem sources_localPut {task : Task Jvm} {work : Work} {entry : Option Activity}
    (hactivity : store'.activity = store.activity)
    (hlocal : store'.localCache = Function.update store.localCache task.jvm entry)
    (hentry : ∀ a, entry = some a → task.work.held = some a) (hheld : work.held = none)
    (hsince : work.since = task.work.since)
    (hresult : ∀ since a, work.result = some (since, a) →
      since = task.work.since ∧ task.work.held = some a) :
    Sources task store store' work := by
  refine ⟨fun a ha => Or.inl (hactivity ▸ ha), fun jvm a ha => ?_, fun a ha => ?_, hsince,
    fun since a ha => ?_⟩
  · rw [hlocal] at ha
    exact (localCache_update ha).imp_right fun ⟨hjvm, ha⟩ => ⟨hjvm, hentry a ha⟩
  · rw [hheld] at ha
    cases ha
  · obtain ⟨hsince, ha⟩ := hresult since a ha
    exact ⟨hsince, Or.inr (Or.inr (Or.inl ha))⟩

/-- A statement that writes the hash, and holds what it has written. -/
theorem sources_putAll {task : Task Jvm} {work : Work} {a : Activity}
    (hactivity : store'.activity = some a) (hwrites : task.work.writes = some a)
    (hlocal : store'.localCache = store.localCache) (hheld : work.held = some a)
    (hsince : work.since = task.work.since) (hresult : work.result = none) :
    Sources task store store' work := by
  refine ⟨fun b hb => Or.inr ?_, fun _ b hb => Or.inl (hlocal ▸ hb), fun b hb => ?_, hsince,
    fun since b hb => ?_⟩
  · rw [hwrites, ← hactivity]
    exact hb
  · rw [hactivity, ← hheld]
    exact hb
  · rw [hresult] at hb
    cases hb

theorem load_sources {phase phase' : LoadPhase} (h : store.load jvm phase = some (store', phase')) :
    Sources ⟨jvm, .rebuild (.load phase)⟩ store store' (.rebuild (.load phase')) ∧
      ∀ a, phase' = .done a → (Work.rebuild (.load phase)).held = some a := by
  cases phase with
  | readSeckill =>
    cases h
    exact ⟨sources_quiet rfl rfl rfl rfl rfl, fun _ hdone => by cases hdone⟩
  | readVoucher beginTime endTime =>
    cases h
    exact ⟨sources_quiet rfl rfl rfl rfl rfl, fun _ hdone => by cases hdone⟩
  | putAll read =>
    simp only [VoucherStore.load] at h
    split at h
    · rename_i hvalid
      cases h
      exact ⟨sources_putAll rfl (if_pos hvalid) rfl rfl rfl rfl, fun _ hdone => by cases hdone⟩
    · cases h
      exact ⟨sources_quiet rfl rfl rfl rfl rfl, fun _ hdone => by cases hdone⟩
  | localPut read =>
    cases h
    refine ⟨sources_localPut rfl rfl (fun a ha => ha) rfl rfl (fun since a ha => by cases ha),
      fun a hdone => ?_⟩
    cases hdone
    rfl
  | done read => cases h
  | failed => cases h

theorem writes_load {since : ℕ} {phase : LoadPhase} :
    (Work.query since (.load phase)).writes = (Work.rebuild (.load phase)).writes := by
  cases phase <;> rfl

theorem held_load {since : ℕ} {phase : LoadPhase} :
    (Work.query since (.load phase)).held = (Work.rebuild (.load phase)).held := by
  cases phase <;> rfl

theorem result_load {since since' : ℕ} {phase : LoadPhase} {a : Activity}
    (h : (Work.query since (.load phase)).result = some (since', a)) :
    since' = since ∧ phase = .done a := by
  cases phase with
  | done read =>
    cases h
    exact ⟨rfl, rfl⟩
  | _ => cases h

/-- A query that reads the hash holds what it finds. -/
theorem sources_afterRead {since : ℕ} {phase miss : VoucherQueryPhase}
    (hheld : (Work.query since miss).held = none)
    (hresult : (Work.query since miss).result = none) :
    Sources ⟨jvm, .query since phase⟩ store store (.query since (store.afterRead miss)) := by
  unfold VoucherStore.afterRead
  split
  · rename_i a ha
    exact ⟨fun _ => Or.inl, fun _ _ => Or.inl, fun b hb => ha.trans hb, rfl,
      fun _ _ hr => by cases hr⟩
  · exact sources_quiet rfl rfl hheld rfl hresult

/-- A query that finds an entry in its JVM's cache, or the last time in the hash, returns it. -/
theorem sources_returning {since : ℕ} {phase : VoucherQueryPhase} {result : Option Activity}
    (hresult : ∀ a, result = some a →
      store.localCache jvm = some a ∨ store.activity = some a) :
    Sources ⟨jvm, .query since phase⟩ store store (.query since (.returning result)) := by
  refine ⟨fun _ => Or.inl, fun _ _ => Or.inl, (fun a ha => by cases ha), rfl, fun since' a hr => ?_⟩
  cases result with
  | none => cases hr
  | some b =>
    cases hr
    exact ⟨rfl, Or.inr ((hresult _ rfl).imp_right Or.inr)⟩

theorem query_sources {since : ℕ} {phase phase' : VoucherQueryPhase}
    (h : store.query jvm locked phase = some (store', phase')) :
    Sources ⟨jvm, .query since phase⟩ store store' (.query since phase') := by
  cases phase with
  | localGet =>
    simp only [VoucherStore.query] at h
    split at h
    · rename_i a ha
      cases h
      exact sources_returning fun b hb => Or.inl (ha.trans hb)
    · cases h
      exact sources_quiet rfl rfl rfl rfl rfl
  | readRedis =>
    cases h
    exact sources_afterRead rfl rfl
  | localPut found =>
    cases h
    refine sources_localPut rfl rfl (fun _ ha => ha) rfl rfl fun since' a hr => ?_
    cases hr
    exact ⟨rfl, rfl⟩
  | isNullCached =>
    cases h
    refine sources_quiet rfl rfl ?_ rfl ?_ <;> split <;> rfl
  | tryLock =>
    cases h
    refine sources_quiet rfl rfl ?_ rfl ?_ <;> split <;> rfl
  | lastReadRedis =>
    cases h
    exact sources_returning fun _ => Or.inr
  | secondLocalGet =>
    simp only [VoucherStore.query] at h
    split at h
    · rename_i a ha
      cases h
      exact sources_returning fun b hb => Or.inl (ha.trans hb)
    · cases h
      exact sources_quiet rfl rfl rfl rfl rfl
  | secondReadRedis =>
    cases h
    exact sources_afterRead rfl rfl
  | secondIsNullCached =>
    cases h
    refine sources_quiet rfl rfl ?_ rfl ?_ <;> split <;> rfl
  | load phase =>
    by_cases hdone : ∃ read, phase = .done read
    · obtain ⟨read, rfl⟩ := hdone
      cases h
      refine ⟨fun _ => Or.inl, fun _ _ => Or.inl, (fun a ha => by cases ha), rfl,
        fun since' a hr => ?_⟩
      cases hr
      exact ⟨rfl, Or.inl rfl⟩
    · rw [query_load fun read hread => hdone ⟨read, hread⟩] at h
      obtain ⟨r, hr, heq⟩ := Option.map_eq_some_iff.mp h
      cases heq
      obtain ⟨hsources, hresult⟩ := load_sources hr
      refine ⟨fun a ha => ?_, fun jvm' a ha => ?_, fun a ha => ?_, rfl, fun since' a ha => ?_⟩
      · rw [writes_load]
        exact hsources.hash a ha
      · rw [held_load]
        exact hsources.localCache jvm' a ha
      · rw [held_load] at ha
        exact hsources.held a ha
      · obtain ⟨rfl, hdone⟩ := result_load ha
        refine ⟨rfl, Or.inr (Or.inr (Or.inl ?_))⟩
        rw [held_load]
        exact hresult a hdone
  | returning result => cases h

theorem rebuild_sources {phase phase' : RebuildPhase}
    (h : store.rebuild jvm locked expired phase = some (store', phase')) :
    Sources ⟨jvm, .rebuild phase⟩ store store' (.rebuild phase') := by
  cases phase with
  | tryLock =>
    cases h
    refine sources_quiet rfl rfl ?_ rfl rfl
    split <;> rfl
  | secondCheck =>
    cases h
    refine sources_quiet rfl rfl ?_ rfl rfl
    split <;> rfl
  | load phase =>
    by_cases hdone : ∃ read, phase = .done read
    · obtain ⟨read, rfl⟩ := hdone
      cases h
      exact sources_quiet rfl rfl rfl rfl rfl
    · rw [rebuild_load fun read hread => hdone ⟨read, hread⟩] at h
      obtain ⟨r, hr, heq⟩ := Option.map_eq_some_iff.mp h
      cases heq
      exact (load_sources hr).1
  | finished => cases h

theorem update_sources [DecidableEq Thread] {column : Time → Time} {th : Thread}
    {u : SeckillVoucherUpdateDTO} {phase phase' : VoucherUpdatePhase}
    (h : store.update column th jvm u phase = some (store', phase')) :
    Sources ⟨jvm, .update u phase⟩ store store' (.update u phase') := by
  cases phase with
  | select =>
    cases h
    refine sources_quiet rfl rfl ?_ rfl rfl
    split <;> rfl
  | patchVoucher old =>
    obtain ⟨rfl, lock, rfl⟩ := patchVoucher_cases h
    exact sources_quiet rfl rfl rfl rfl rfl
  | patchSeckill old =>
    obtain ⟨rfl, lock, rfl⟩ := patchSeckill_cases h
    exact sources_quiet rfl rfl rfl rfl rfl
  | putAll old =>
    simp only [VoucherStore.update] at h
    split at h
    · rename_i hvalid
      cases h
      exact sources_putAll rfl (if_pos hvalid) rfl rfl rfl rfl
    · cases h
      exact sources_quiet rfl rfl rfl rfl rfl
  | localPut old =>
    cases h
    exact sources_localPut rfl rfl (fun _ ha => ha) rfl rfl fun _ _ hr => by cases hr
  | commit old =>
    cases h
    exact sources_quiet rfl rfl rfl rfl rfl
  | afterCommit =>
    cases h
    exact sources_localPut rfl rfl (fun _ ha => by cases ha) rfl rfl fun _ _ hr => by cases hr
  | restore old =>
    simp only [VoucherStore.update] at h
    split at h
    · rename_i hvalid
      cases h
      exact sources_putAll rfl (if_pos hvalid) rfl rfl rfl rfl
    · cases h
      exact sources_quiet rfl rfl rfl rfl rfl
  | restoreLocal old =>
    cases h
    exact sources_localPut rfl rfl (fun _ ha => ha) rfl rfl fun _ _ hr => by cases hr
  | finished => cases h

/-- **Where values come from.** -/
theorem next_sources [DecidableEq Thread] {column : Time → Time} {th : Thread} {task : Task Jvm}
    {work : Work} (h : task.next column th locked expired store = some (store', work)) :
    Sources task store store' work := by
  obtain ⟨jvm, old⟩ := task
  cases old with
  | update u phase =>
    obtain ⟨r, hr, heq⟩ := Option.map_eq_some_iff.mp h
    cases heq
    exact update_sources hr
  | rebuild phase =>
    obtain ⟨r, hr, heq⟩ := Option.map_eq_some_iff.mp h
    cases heq
    exact rebuild_sources hr
  | query since phase =>
    obtain ⟨r, hr, heq⟩ := Option.map_eq_some_iff.mp h
    cases heq
    exact query_sources hr

/-! ## The condition -/

/-- An entry that a JVM may serve once it has consumed the event of the update `version`. -/
def Fresh (s : State Thread Jvm) (version : ℕ) (a : Activity) : Prop :=
  1 ≤ version → AtLeastAsNew s.history s.attempts version a

instance [Fintype Thread] (s : State Thread Jvm) (version : ℕ) (a : Activity) :
    Decidable (Fresh s version a) := inferInstanceAs (Decidable (_ → _))

/-- The update of the thread is undone. -/
def State.withdraw [DecidableEq Thread] (s : State Thread Jvm) (th : Thread) : State Thread Jvm :=
  { s with attempts := Function.update s.attempts th none }

/-- Without the update of the thread, what the JVMs have is still as new as it has to be: the
entries of `caches`, and what the other calls hold or are about to return. -/
def Withdrawn [DecidableEq Thread] (s : State Thread Jvm) (th : Thread)
    (caches : Jvm → Option Activity) : Prop :=
  (∀ jvm a, caches jvm = some a → Fresh (s.withdraw th) (s.consumed jvm) a) ∧
    ∀ other task, s.tasks other = some task →
      (other ≠ th → ∀ a, task.work.held = some a →
        Fresh (s.withdraw th) (s.consumed task.jvm) a) ∧
      ∀ x, task.work.result = some x → Fresh (s.withdraw th) x.1 x.2

instance [Fintype Thread] [DecidableEq Thread] [Fintype Jvm] (s : State Thread Jvm) (th : Thread)
    (caches : Jvm → Option Activity) : Decidable (Withdrawn s th caches) :=
  inferInstanceAs (Decidable ((∀ jvm, ∀ a ∈ caches jvm, _) ∧ ∀ other, ∀ task ∈ s.tasks other,
    (_ → ∀ a ∈ task.work.held, _) ∧ ∀ x ∈ task.work.result, _))

/-- The hash is kept as in `Isolated`; no call of the JVM holds an older entry when an invalidation
is consumed; and when an update that was rolled back ends, with its compensation's `put` or without,
it leaves nothing behind. -/
def Fenced [DecidableEq Thread] (column : Time → Time) (s : State Thread Jvm)
    (a : Action Thread Jvm) : Prop :=
  Isolated column s a ∧
    match a with
    | .consume jvm version => ∀ th task, s.tasks th = some task → task.jvm = jvm →
        ∀ entry, task.work.held = some entry → AtLeastAsNew s.history s.attempts version entry
    | .next th _ _ => ∀ task, s.tasks th = some task → ∀ old, task.work.restored = some old →
        Withdrawn s th (Function.update s.store.localCache task.jvm (some old))
    | .throw th => ∀ task, s.tasks th = some task → ∀ old, task.work.restored = some old →
        Withdrawn s th s.store.localCache
    | _ => True

instance [Fintype Thread] [DecidableEq Thread] [Fintype Jvm] (column : Time → Time)
    (s : State Thread Jvm) (a : Action Thread Jvm) : Decidable (Fenced column s a) :=
  have : Decidable (match a with
      | .consume jvm version => ∀ th, ∀ task ∈ s.tasks th, task.jvm = jvm →
          ∀ entry ∈ task.work.held, AtLeastAsNew s.history s.attempts version entry
      | .next th _ _ => ∀ task ∈ s.tasks th, ∀ old ∈ task.work.restored,
          Withdrawn s th (Function.update s.store.localCache task.jvm (some old))
      | .throw th => ∀ task ∈ s.tasks th, ∀ old ∈ task.work.restored,
          Withdrawn s th s.store.localCache
      | _ => True) := by
    cases a <;> infer_instance
  inferInstanceAs (Decidable (_ ∧ _))

/-! ## The invariant -/

/-- Updates are only added, and one that is under way stays so or is in the rows. -/
structure Grows (s t : State Thread Jvm) : Prop where
  history : s.history <+: t.history
  attempts : ∀ th n u, s.attempts th = some (n, u) → t.attempts th = some (n, u) ∨
    ∃ b ∈ t.history.drop n, ∀ f value, patchOf u f = some value → fieldOf b f = value

/-- What a call holds and what it is about to return is as new as it has to be. -/
structure Serves (s : State Thread Jvm) (task : Task Jvm) : Prop where
  since : task.work.since ≤ s.consumed task.jvm
  held : ∀ a, task.work.held = some a → Fresh s (s.consumed task.jvm) a
  result : ∀ since a, task.work.result = some (since, a) → Fresh s since a

/-- What the stores and the calls have is as new as it has to be; the hash has the rows, or what the
update sets that has written it. -/
structure Newer (column : Time → Time) (s : State Thread Jvm) : Prop where
  inv : Inv column s
  rows : ∀ b, s.history.getLast? = some b → b = s.store.db
  consumed : ∀ jvm, s.consumed jvm ≤ s.history.length
  attempts : ∀ th n u, s.attempts th = some (n, u) → n ≤ s.history.length ∧
    ∃ work, s.work th = some work ∧ work.undecided = some u
  hash : ∀ a, s.store.activity = some a → a = s.store.db ∨
    ∃ th work u, s.work th = some work ∧ work.dirty = true ∧
      s.attempts th = some (s.history.length, u) ∧ a = u.apply s.store.db
  localCache : ∀ jvm a, s.store.localCache jvm = some a → Fresh s (s.consumed jvm) a
  tasks : ∀ th task, s.tasks th = some task → Serves s task

section

variable {column : Time → Time} {s t : State Thread Jvm} {th : Thread} {task : Task Jvm}
  {version version' : ℕ} {a : Activity}

omit [DecidableEq Jvm] in
theorem Fresh.grows (h : Fresh s version a) (hg : Grows s t) : Fresh t version a := by
  intro hpos f
  obtain ⟨more, hmore⟩ := hg.history
  rcases h hpos f with ⟨b, hb, hf⟩ | ⟨th, ⟨n, u⟩, hx, hn, hf⟩
  · refine Or.inl ⟨b, ?_, hf⟩
    rw [← hmore, List.drop_append]
    exact List.mem_append_left _ hb
  · rcases hg.attempts th n u hx with hkept | ⟨b, hb, hpatched⟩
    · exact Or.inr ⟨th, _, hkept, hn, hf⟩
    · exact Or.inl ⟨b, List.drop_subset_drop_left _ ((Nat.sub_le version 1).trans hn) hb,
        hpatched f _ hf⟩

omit [DecidableEq Jvm] in
theorem Fresh.mono (h : Fresh s version a) (hle : version' ≤ version) : Fresh s version' a :=
  fun hpos => (h (hpos.trans hle)).mono hle

omit [DecidableEq Jvm] in
theorem Serves.grows (h : Serves s task) (hg : Grows s t) (hconsumed : t.consumed = s.consumed) :
    Serves t task where
  since := hconsumed ▸ h.since
  held a ha := hconsumed ▸ (h.held a ha).grows hg
  result since a ha := (h.result since a ha).grows hg

omit [DecidableEq Jvm] in
/-- A call that holds nothing. -/
theorem serves_of_nothing (hsince : task.work.since ≤ s.consumed task.jvm)
    (hheld : task.work.held = none) (hresult : task.work.result = none) : Serves s task := by
  refine ⟨hsince, fun a ha => ?_, fun since a ha => ?_⟩
  · rw [hheld] at ha
    cases ha
  · rw [hresult] at ha
    cases ha

omit [DecidableEq Jvm] in
/-- **The hash is as new as the rows.** -/
theorem fresh_of_hash (hrows : ∀ b, s.history.getLast? = some b → b = s.store.db)
    (ha : a = s.store.db ∨ ∃ th work u, s.work th = some work ∧ work.dirty = true ∧
      s.attempts th = some (s.history.length, u) ∧ a = u.apply s.store.db) :
    Fresh s s.history.length a := by
  intro hpos
  obtain ⟨b, hb⟩ : ∃ b, s.history.getLast? = some b :=
    ⟨_, List.getLast?_eq_some_getLast (List.ne_nil_of_length_pos hpos)⟩
  obtain rfl := hrows b hb
  rcases ha with rfl | ⟨th, work, u, -, -, hattempt, rfl⟩
  · exact atLeastAsNew_of_getLast hb
  · exact atLeastAsNew_apply hb hattempt

omit [DecidableEq Jvm] in
/-- A step that consumes no event and undoes no update. -/
theorem Newer.grows (hs : Newer column s) (hinv : Inv column t) (hg : Grows s t)
    (hconsumed : t.consumed = s.consumed)
    (hrows : ∀ b, t.history.getLast? = some b → b = t.store.db)
    (hattempts : ∀ th n u, t.attempts th = some (n, u) → n ≤ t.history.length ∧
      ∃ work, t.work th = some work ∧ work.undecided = some u)
    (hhash : ∀ a, t.store.activity = some a → a = t.store.db ∨
      ∃ th work u, t.work th = some work ∧ work.dirty = true ∧
        t.attempts th = some (t.history.length, u) ∧ a = u.apply t.store.db)
    (hlocal : ∀ jvm a, t.store.localCache jvm = some a → Fresh t (t.consumed jvm) a)
    (htasks : ∀ th task, t.tasks th = some task → s.tasks th = some task ∨ Serves t task) :
    Newer column t where
  inv := hinv
  rows := hrows
  consumed jvm := by
    rw [hconsumed]
    exact (hs.consumed jvm).trans hg.history.length_le
  attempts := hattempts
  hash := hhash
  localCache := hlocal
  tasks th task h := by
    rcases htasks th task h with h | h
    · exact (hs.tasks th task h).grows hg hconsumed
    · exact h

omit [DecidableEq Jvm] in
/-- A step that changes only tasks, or drops entries; an undecided update goes on. -/
theorem Newer.drops (hs : Newer column s) (hinv : Inv column t) (hhistory : t.history = s.history)
    (hattempts : t.attempts = s.attempts) (hconsumed : t.consumed = s.consumed)
    (hdb : t.store.db = s.store.db)
    (hhash : ∀ a, t.store.activity = some a → s.store.activity = some a)
    (hlocal : ∀ jvm a, t.store.localCache jvm = some a → s.store.localCache jvm = some a)
    (hundecided : ∀ th work u, s.work th = some work → work.undecided = some u →
      ∃ work', t.work th = some work' ∧ work'.undecided = some u ∧
        (work.dirty = true → work'.dirty = true))
    (htasks : ∀ th task, t.tasks th = some task → s.tasks th = some task ∨ Serves t task) :
    Newer column t := by
  have hg : Grows s t :=
    ⟨hhistory ▸ List.prefix_rfl, fun th n u h => Or.inl (by rw [hattempts]; exact h)⟩
  refine hs.grows hinv hg hconsumed (fun b hb => ?_) (fun th n u h => ?_) (fun a ha => ?_)
    (fun jvm a ha => ?_) htasks
  · rw [hhistory] at hb
    rw [hdb]
    exact hs.rows b hb
  · rw [hattempts] at h
    obtain ⟨hle, work, hwork, hu⟩ := hs.attempts th n u h
    obtain ⟨work', hwork', hu', -⟩ := hundecided th work u hwork hu
    exact ⟨hhistory ▸ hle, work', hwork', hu'⟩
  · rw [hdb, hhistory, hattempts]
    refine (hs.hash a (hhash a ha)).imp_right ?_
    rintro ⟨th, work, u, hwork, hdirty, hattempt, heq⟩
    obtain ⟨-, work₁, hwork₁, hu⟩ := hs.attempts th _ u hattempt
    obtain rfl : work = work₁ := Option.some.inj (hwork.symm.trans hwork₁)
    obtain ⟨work', hwork', -, hdirty'⟩ := hundecided th work u hwork hu
    exact ⟨th, work', u, hwork', hdirty' hdirty, hattempt, heq⟩
  · rw [hconsumed]
    exact (hs.localCache jvm a (hlocal jvm a ha)).grows hg

end

/-! ## Steps -/

section

variable [DecidableEq Thread] {column : Time → Time} {s t : State Thread Jvm} {th : Thread}
  {task : Task Jvm} {work : Work}

/-- The rows change at a commit only. -/
theorem next_db (h : task.next column th locked expired store = some (store', work)) :
    (∃ u old, task.work = .update u (.commit old) ∧ store'.activity = store.activity ∧
      store'.db = (u.kept column).apply store.db) ∨
    (task.work.commits = false ∧ store'.db = store.db) := by
  obtain ⟨jvm, old⟩ := task
  cases old with
  | update u phase =>
    obtain ⟨r, hr, heq⟩ := Option.map_eq_some_iff.mp h
    cases heq
    cases phase with
    | commit old =>
      cases hr
      exact Or.inl ⟨u, old, rfl, rfl, rfl⟩
    | patchVoucher old =>
      obtain ⟨-, lock, hstore⟩ := patchVoucher_cases hr
      exact Or.inr ⟨rfl, by rw [hstore]⟩
    | patchSeckill old =>
      obtain ⟨-, lock, hstore⟩ := patchSeckill_cases hr
      exact Or.inr ⟨rfl, by rw [hstore]⟩
    | putAll old =>
      right
      simp only [VoucherStore.update] at hr
      split at hr <;> cases hr <;> exact ⟨rfl, rfl⟩
    | restore old =>
      right
      simp only [VoucherStore.update] at hr
      split at hr <;> cases hr <;> exact ⟨rfl, rfl⟩
    | finished => cases hr
    | _ =>
      cases hr
      exact Or.inr ⟨rfl, rfl⟩
  | rebuild phase =>
    obtain ⟨r, hr, heq⟩ := Option.map_eq_some_iff.mp h
    cases heq
    rcases rebuild_cases hr with hleaves | ⟨_, _, hdb, _⟩
    · exact Or.inr ⟨rfl, hleaves.1⟩
    · exact Or.inr ⟨rfl, hdb⟩
  | query since phase =>
    obtain ⟨r, hr, heq⟩ := Option.map_eq_some_iff.mp h
    cases heq
    rcases query_cases hr with hleaves | ⟨_, _, hdb, _⟩
    · exact Or.inr ⟨rfl, hleaves.1⟩
    · exact Or.inr ⟨rfl, hdb⟩

omit [DecidableEq Jvm] [DecidableEq Thread] in
theorem undecided_of_dirty (h : work.dirty = true) : work.undecided.isSome = true := by
  unfold Work.dirty at h
  split at h
  · rfl
  · rfl
  · rfl
  · cases h

/-- What becomes of an update that is neither committed nor undone. -/
theorem undecided_next (h : task.next column th locked expired store = some (store', work))
    {u : SeckillVoucherUpdateDTO} (hu : task.work.undecided = some u) :
    task.work.attempt = none ∧ (work.undecided = some u ∨ (work.undecided = none ∧
      ((∃ old, task.work = .update u (.commit old)) ∨ (∃ old, task.work.restored = some old) ∨
        ∃ old, task.work = .update u (.restore old) ∧ old.valid = false))) := by
  obtain ⟨jvm, old⟩ := task
  cases old with
  | update u' phase =>
    obtain ⟨r, hr, heq⟩ := Option.map_eq_some_iff.mp h
    cases heq
    cases phase with
    | localPut old =>
      cases hr
      exact ⟨rfl, Or.inl hu⟩
    | commit old =>
      cases hr
      cases hu
      exact ⟨rfl, Or.inr ⟨rfl, Or.inl ⟨old, rfl⟩⟩⟩
    | restore old =>
      cases hu
      refine ⟨rfl, ?_⟩
      simp only [VoucherStore.update] at hr
      split at hr
      · cases hr
        exact Or.inl rfl
      · rename_i hvalid
        cases hr
        exact Or.inr ⟨rfl, Or.inr (Or.inr ⟨old, rfl, Bool.eq_false_iff.mpr hvalid⟩)⟩
    | restoreLocal old =>
      cases hr
      exact ⟨rfl, Or.inr ⟨rfl, Or.inr (Or.inl ⟨old, rfl⟩)⟩⟩
    | _ => cases hu
  | rebuild phase => cases hu
  | query since phase => cases hu

/-- The write of the hash. -/
theorem attempt_next (h : task.next column th locked expired store = some (store', work))
    {u : SeckillVoucherUpdateDTO} (ha : task.work.attempt = some u) :
    ∃ old, task.work = .update u (.putAll old) ∧ work = .update u (.localPut old) := by
  obtain ⟨jvm, old⟩ := task
  unfold Work.attempt at ha
  split at ha
  · rename_i u' old heq
    subst heq
    split at ha
    · rename_i hvalid
      cases ha
      obtain ⟨r, hr, heq⟩ := Option.map_eq_some_iff.mp h
      simp only [VoucherStore.update, hvalid, if_true, Option.some.injEq] at hr
      cases heq
      subst hr
      exact ⟨old, rfl, rfl⟩
    · cases ha
  · cases ha

/-- What an update that has written the hash does next. -/
theorem dirty_next (h : task.next column th locked expired store = some (store', work))
    (hdirty : task.work.dirty = true) : work.dirty = true ∨ task.work.commits = true ∨
      ∃ u old, task.work = .update u (.restore old) ∧
        (old.valid = true → store'.activity = some old) := by
  obtain ⟨jvm, old⟩ := task
  cases old with
  | update u phase =>
    obtain ⟨r, hr, heq⟩ := Option.map_eq_some_iff.mp h
    cases heq
    cases phase with
    | localPut old =>
      cases hr
      exact Or.inl rfl
    | commit old => exact Or.inr (Or.inl rfl)
    | restore old =>
      refine Or.inr (Or.inr ⟨u, old, rfl, fun hvalid => ?_⟩)
      simp only [VoucherStore.update, hvalid, if_true, Option.some.injEq] at hr
      cases hr
      rfl
    | _ => cases hdirty
  | rebuild phase => cases hdirty
  | query since phase => cases hdirty

/-- What `step` makes of a statement that leaves the work `work`. -/
structure Statement (column : Time → Time) (s t : State Thread Jvm) (th : Thread) (task : Task Jvm)
    (locked expired : Bool) (work : Work) : Prop where
  before : s.tasks th = some task
  next : task.next column th locked expired s.store = some (t.store, work)
  after : t.tasks = Function.update s.tasks th (some ⟨task.jvm, work⟩)
  history : t.history = s.history ++ if task.work.commits then [t.store.db] else []
  attempts : t.attempts = Function.update s.attempts th (s.attemptAfter th task.work work)
  consumed : t.consumed = s.consumed

namespace Statement

theorem work_before (h : Statement column s t th task locked expired work) :
    s.work th = some task.work := congrArg (Option.map Task.work) h.before

theorem work_after (h : Statement column s t th task locked expired work) :
    t.work th = some work := by
  simp [State.work, h.after]

theorem work_of_ne (h : Statement column s t th task locked expired work) {other : Thread}
    (hne : other ≠ th) : t.work other = s.work other := by
  simp [State.work, h.after, hne]

theorem attempts_of_ne (h : Statement column s t th task locked expired work) {other : Thread}
    (hne : other ≠ th) : t.attempts other = s.attempts other := by
  rw [h.attempts, Function.update_of_ne hne]

/-- The update of the thread that is neither committed nor undone. -/
theorem undecided (h : Statement column s t th task locked expired work) (hs : Newer column s)
    {n : ℕ} {u : SeckillVoucherUpdateDTO} (hu : s.attempts th = some (n, u)) :
    n ≤ s.history.length ∧ task.work.undecided = some u := by
  obtain ⟨hle, work', hwork', hundecided⟩ := hs.attempts th n u hu
  obtain rfl : task.work = work' := Option.some.inj (h.work_before.symm.trans hwork')
  exact ⟨hle, hundecided⟩

/-- A commit of what the hash has, or no change of the rows. -/
theorem cases (h : Statement column s t th task locked expired work) (hs : Inv column s) :
    (t.history = s.history ++ [t.store.db] ∧
      ∀ a, t.store.activity = some a → a = t.store.db) ∨
    (task.work.commits = false ∧ t.history = s.history ∧ t.store.db = s.store.db) := by
  have hhistory := h.history
  rcases next_db h.next with ⟨u, old, hwork, hactivity, hdb⟩ | ⟨hcommits, hdb⟩
  · left
    have hworks : s.work th = some (.update u (.commit old)) :=
      h.work_before.trans (congrArg some hwork)
    obtain ⟨hkept, hcurrent, -, hwritten⟩ := hs.written th _ u old hworks rfl
    rw [hwork] at hhistory
    refine ⟨hhistory, fun a ha => ?_⟩
    rw [hactivity] at ha
    rw [hwritten a ha, hdb, hkept, hcurrent]
  · rw [hcommits] at hhistory
    exact Or.inr ⟨hcommits, hhistory.trans (List.append_nil _), hdb⟩

/-- A statement that undoes no update. -/
theorem grows (h : Statement column s t th task locked expired work) (hs : Newer column s)
    (hkept : task.work.restored = none) : Grows s t := by
  refine ⟨⟨_, h.history.symm⟩, fun other n u hu => ?_⟩
  by_cases hother : other = th
  swap
  · exact Or.inl (by rw [h.attempts_of_ne hother]; exact hu)
  subst hother
  obtain ⟨hle, hundecided⟩ := h.undecided hs hu
  obtain ⟨hattempt, hstays | ⟨-, ⟨old, hwork⟩ | ⟨old, hrestored⟩ | ⟨old, hwork, hvalid⟩⟩⟩ :=
    undecided_next h.next hundecided
  · left
    rw [h.attempts, Function.update_self, State.attemptAfter, hattempt]
    simp only [hstays, Option.isSome_some, if_true]
    exact hu
  · -- the rows have what a committed update sets
    right
    have hworks : s.work other = some (.update u (.commit old)) :=
      h.work_before.trans (congrArg some hwork)
    obtain ⟨hpatched, -⟩ := hs.inv.written other _ u old hworks rfl
    have hhistory := h.history
    rw [hwork] at hhistory
    refine ⟨t.store.db, ?_, fun f value hf => ?_⟩
    · rw [hhistory, List.drop_append_of_le_length hle]
      exact List.mem_append_right _ (List.mem_singleton_self _)
    · rcases next_db h.next with ⟨u', old', hwork', -, hdb⟩ | ⟨hcommits, -⟩
      · cases hwork.symm.trans hwork'
        rw [hdb, hpatched, fieldOf_apply, hf]
        rfl
      · rw [hwork] at hcommits
        cases hcommits
  · rw [hkept] at hrestored
    cases hrestored
  · have hold := hs.inv.old other _ old (h.work_before.trans (congrArg some hwork)) rfl
    rw [hvalid] at hold
    cases hold

theorem rows (h : Statement column s t th task locked expired work) (hs : Newer column s)
    (b : Activity) (hb : t.history.getLast? = some b) : b = t.store.db := by
  rcases h.cases hs.inv with ⟨hhistory, -⟩ | ⟨-, hhistory, hdb⟩
  · rw [hhistory, List.getLast?_append] at hb
    exact (Option.some.inj hb).symm
  · rw [hhistory] at hb
    rw [hdb]
    exact hs.rows b hb

/-- An update that is still undecided has a call. -/
theorem attempted (h : Statement column s t th task locked expired work) (hs : Newer column s)
    (other : Thread) (n : ℕ) (u : SeckillVoucherUpdateDTO) (hu : t.attempts other = some (n, u)) :
    n ≤ t.history.length ∧ ∃ work, t.work other = some work ∧ work.undecided = some u := by
  have hlength : s.history.length ≤ t.history.length := by
    rw [h.history, List.length_append]
    exact Nat.le_add_right _ _
  by_cases hother : other = th
  swap
  · rw [h.attempts_of_ne hother] at hu
    rw [h.work_of_ne hother]
    exact (hs.attempts other n u hu).imp_left fun hle => hle.trans hlength
  subst hother
  rw [h.attempts, Function.update_self, State.attemptAfter] at hu
  rw [h.work_after]
  cases hattempt : task.work.attempt with
  | some u' =>
    rw [hattempt] at hu
    cases hu
    obtain ⟨old, -, rfl⟩ := attempt_next h.next hattempt
    exact ⟨hlength, _, rfl, rfl⟩
  | none =>
    simp only [hattempt] at hu
    split at hu
    · rename_i hstill
      obtain ⟨hle, hundecided⟩ := h.undecided hs hu
      refine ⟨hle.trans hlength, _, rfl, ?_⟩
      rcases (undecided_next h.next hundecided).2 with hstays | ⟨hnone, -⟩
      · exact hstays
      · rw [hnone] at hstill
        cases hstill
    · cases hu

/-- The attempt of an update goes on with it. -/
theorem attempt_stays (h : Statement column s t th task locked expired work) (hs : Newer column s)
    {n : ℕ} {u : SeckillVoucherUpdateDTO} (hu : s.attempts th = some (n, u))
    (hstill : work.undecided.isSome = true) : t.attempts th = some (n, u) := by
  obtain ⟨hattempt, -⟩ := undecided_next h.next (h.undecided hs hu).2
  rw [h.attempts, Function.update_self, State.attemptAfter, hattempt]
  simp only [hstill, if_true]
  exact hu

/-- What a statement in isolation writes to the hash. -/
theorem hash_written (h : Statement column s t th task locked expired work)
    (hiso : IsolatedWork column s th task.work) {a : Activity} (ha : task.work.writes = some a) :
    a = s.store.db ∨ ∃ u, work.dirty = true ∧ t.attempts th = some (s.history.length, u) ∧
      a = u.apply s.store.db := by
  -- what has been read is what the rows have now
  have hread : ∀ {read : Activity}, (if read.valid then some read else none) = some a →
      read = s.store.db → a = s.store.db := by
    intro read h hcurrent
    split at h <;> cases h
    exact hcurrent
  cases hattempt : task.work.attempt with
  | some u =>
    obtain ⟨old, hwork, rfl⟩ := attempt_next h.next hattempt
    rw [hwork] at ha hiso
    simp only [Work.writes] at ha
    split at ha <;> cases ha
    refine Or.inr ⟨u, rfl, ?_, (of_decide_eq_true (hiso rfl).1).2⟩
    rw [h.attempts, Function.update_self, State.attemptAfter, hattempt]
  | none =>
    left
    generalize task.work = before at ha hiso hattempt
    unfold Work.writes at ha
    split at ha
    · rename_i u old
      split at ha
      · rename_i hvalid
        simp [Work.attempt, hvalid] at hattempt
      · cases ha
    · exact hread ha (of_decide_eq_true (hiso rfl).1)
    · exact hread ha (of_decide_eq_true (hiso rfl).1)
    · exact hread ha (of_decide_eq_true (hiso rfl).1)
    · cases ha

/-- **The hash** is as it was, or written now, or is what the update sets whose commit this is. -/
theorem hash (h : Statement column s t th task locked expired work) (hs : Newer column s)
    (hiso : IsolatedWork column s th task.work) (a : Activity)
    (ha : t.store.activity = some a) : a = t.store.db ∨
      ∃ th work u, t.work th = some work ∧ work.dirty = true ∧
        t.attempts th = some (t.history.length, u) ∧ a = u.apply t.store.db := by
  rcases h.cases hs.inv with ⟨-, hcommitted⟩ | ⟨hcommits, hhistory, hdb⟩
  · exact Or.inl (hcommitted a ha)
  rw [hdb, hhistory]
  rcases (next_sources h.next).hash a ha with hsame | hwrites
  swap
  · refine (h.hash_written hiso hwrites).imp_right ?_
    rintro ⟨u, hdirty, hattempt, heq⟩
    exact ⟨th, work, u, h.work_after, hdirty, hattempt, heq⟩
  rcases hs.hash a hsame with rfl | ⟨other, work', u, hwork', hdirty, hattempt, heq⟩
  · exact Or.inl rfl
  by_cases hother : other = th
  swap
  · refine Or.inr ⟨other, work', u, ?_, hdirty, ?_, heq⟩
    · rw [h.work_of_ne hother, hwork']
    · rw [h.attempts_of_ne hother, hattempt]
  subst hother
  obtain rfl : task.work = work' := Option.some.inj (h.work_before.symm.trans hwork')
  rcases dirty_next h.next hdirty with hstill | hcommit | ⟨u', old, hwork, hrestored⟩
  · exact Or.inr ⟨other, work, u, h.work_after, hstill,
      h.attempt_stays hs hattempt (undecided_of_dirty hstill), heq⟩
  · rw [hcommits] at hcommit
    cases hcommit
  · -- the compensation writes what the rows have
    left
    have hold := hs.inv.old other _ old (h.work_before.trans (congrArg some hwork)) rfl
    rw [hrestored hold] at ha
    rw [hwork] at hiso
    exact (Option.some.inj ha).symm.trans (of_decide_eq_true (hiso rfl).1)

/-- The work left has only what was fresh before or the hash has now. -/
theorem serves (h : Statement column s t th task locked expired work) (hs : Newer column s)
    (hg : Grows s t)
    (hhash : ∀ a, t.store.activity = some a → Fresh t t.history.length a) :
    Serves t ⟨task.jvm, work⟩ := by
  have hsources := next_sources h.next
  have htask := hs.tasks th task h.before
  have hsince : work.since = task.work.since := hsources.since
  refine ⟨?_, fun a ha => ?_, fun since a ha => ?_⟩
  · show work.since ≤ t.consumed task.jvm
    rw [h.consumed, hsince]
    exact htask.since
  · refine (hhash a (hsources.held a ha)).mono ?_
    rw [h.consumed]
    exact (hs.consumed task.jvm).trans hg.history.length_le
  · obtain ⟨rfl, hcases⟩ := hsources.result since a ha
    refine Fresh.grows ?_ hg
    rcases hcases with hresult | hlocal | hheld | hactivity
    · exact htask.result _ a hresult
    · exact (hs.localCache task.jvm a hlocal).mono htask.since
    · exact (htask.held a hheld).mono htask.since
    · exact (fresh_of_hash hs.rows (hs.hash a hactivity)).mono
        (htask.since.trans (hs.consumed task.jvm))

theorem localCache (h : Statement column s t th task locked expired work) (hs : Newer column s)
    (hg : Grows s t) (jvm : Jvm) (a : Activity) (ha : t.store.localCache jvm = some a) :
    Fresh t (t.consumed jvm) a := by
  rw [h.consumed]
  refine Fresh.grows ?_ hg
  rcases (next_sources h.next).localCache jvm a ha with hsame | ⟨rfl, hheld⟩
  · exact hs.localCache jvm a hsame
  · exact (hs.tasks th task h.before).held a hheld

end Statement

omit [DecidableEq Jvm] in
/-- A task is as it was, or new. -/
theorem forall_tasks {P : Task Jvm → Prop} {new : Option (Task Jvm)}
    (htasks : t.tasks = Function.update s.tasks th new) (hnew : ∀ task, new = some task → P task)
    (th' : Thread) (task : Task Jvm) (h : t.tasks th' = some task) :
    s.tasks th' = some task ∨ P task := by
  rw [htasks, Function.update_apply] at h
  split at h
  · exact Or.inr (hnew task h)
  · exact Or.inl h

/-- A statement of a call that undoes no update. -/
theorem Newer.next (hs : Newer column s) (hinv : Inv column t)
    (h : Statement column s t th task locked expired work)
    (hiso : IsolatedWork column s th task.work) (hkept : task.work.restored = none) :
    Newer column t := by
  have hg := h.grows hs hkept
  have hhash := h.hash hs hiso
  refine hs.grows hinv hg h.consumed (h.rows hs) (h.attempted hs) hhash (h.localCache hs hg)
    (forall_tasks h.after fun task' heq => ?_)
  cases heq
  exact h.serves hs hg fun a ha => fresh_of_hash (h.rows hs) (hhash a ha)

omit [DecidableEq Jvm] in
/-- **An update that was rolled back ends**, and leaves nothing behind. -/
theorem Newer.withdraw {old : Activity} {new : Option (Task Jvm)} (hs : Newer column s)
    (hinv : Inv column t) (htask : s.tasks th = some task)
    (hrestored : task.work.restored = some old)
    (hleft : Withdrawn s th t.store.localCache) (hhistory : t.history = s.history)
    (hattempts : t.attempts = Function.update s.attempts th none)
    (hconsumed : t.consumed = s.consumed) (hdb : t.store.db = s.store.db)
    (hactivity : t.store.activity = s.store.activity)
    (htasks : t.tasks = Function.update s.tasks th new)
    (hnew : ∀ task', new = some task' →
      task'.work.since = 0 ∧ task'.work.held = none ∧ task'.work.result = none) :
    Newer column t := by
  have hfresh : ∀ {version a}, Fresh (s.withdraw th) version a → Fresh t version a := by
    intro version a h
    rw [Fresh, hhistory, hattempts]
    exact h
  have hwork : ∀ {other}, other ≠ th → t.work other = s.work other := by
    intro other hne
    simp [State.work, htasks, hne]
  have hattempt : ∀ {other x}, t.attempts other = some x →
      other ≠ th ∧ s.attempts other = some x := by
    intro other x hx
    rw [hattempts, Function.update_apply] at hx
    split at hx
    · cases hx
    · exact ⟨‹_›, hx⟩
  constructor
  · exact hinv
  · intro b hb
    rw [hhistory] at hb
    rw [hdb]
    exact hs.rows b hb
  · intro jvm
    rw [hconsumed, hhistory]
    exact hs.consumed jvm
  · intro other n u hu
    obtain ⟨hne, hu⟩ := hattempt hu
    rw [hhistory, hwork hne]
    exact hs.attempts other n u hu
  · intro a ha
    rw [hactivity] at ha
    rw [hdb]
    refine (hs.hash a ha).imp_right ?_
    rintro ⟨other, work, u, hother, hdirty, hu, heq⟩
    have hne : other ≠ th := by
      rintro rfl
      obtain rfl : task.work = work :=
        Option.some.inj ((congrArg (Option.map Task.work) htask).symm.trans hother)
      unfold Work.restored at hrestored
      split at hrestored
      · rename_i heq
        rw [heq] at hdirty
        cases hdirty
      · cases hrestored
    refine ⟨other, work, u, (hwork hne).trans hother, hdirty, ?_, heq⟩
    rw [hattempts, Function.update_of_ne hne, hhistory]
    exact hu
  · intro jvm a ha
    rw [hconsumed]
    exact hfresh (hleft.1 jvm a ha)
  · intro other task' h
    rw [htasks, Function.update_apply] at h
    split at h
    · obtain ⟨hsince, hheld, hresult⟩ := hnew task' h
      exact serves_of_nothing (hsince ▸ Nat.zero_le _) hheld hresult
    · rename_i hne
      obtain ⟨hheld, hresult⟩ := hleft.2 other task' h
      refine ⟨hconsumed ▸ (hs.tasks other task' h).since, fun a ha => ?_, fun since a ha => ?_⟩
      · rw [hconsumed]
        exact hfresh (hheld hne a ha)
      · exact hfresh (hresult (since, a) ha)

omit [DecidableEq Thread] in
/-- The consumer invalidates the entry of its JVM; no call there holds an older one. -/
theorem Newer.consume {version : ℕ} (hs : Newer column s) (hinv : Inv column t)
    (hheld : ∀ th task, s.tasks th = some task → task.jvm = jvm →
      ∀ entry, task.work.held = some entry → AtLeastAsNew s.history s.attempts version entry)
    (hversion : version ≤ s.history.length)
    (ht : t = { s with
      store := s.store.invalidateLocal jvm
      consumed := Function.update s.consumed jvm (max (s.consumed jvm) version) }) :
    Newer column t := by
  subst ht
  have hle : ∀ jvm', s.consumed jvm' ≤
      Function.update s.consumed jvm (max (s.consumed jvm) version) jvm' := by
    intro jvm'
    rw [Function.update_apply]
    split
    · rename_i hj
      rw [hj]
      exact le_max_left _ _
    · exact le_rfl
  refine ⟨hinv, hs.rows, fun jvm' => ?_, hs.attempts, hs.hash, fun jvm' a ha => ?_,
    fun th task htask => ?_⟩
  · show Function.update s.consumed jvm (max (s.consumed jvm) version) jvm' ≤ _
    rw [Function.update_apply]
    split
    · exact max_le (hs.consumed jvm) hversion
    · exact hs.consumed jvm'
  · show Fresh s (Function.update s.consumed jvm (max (s.consumed jvm) version) jvm') a
    by_cases hj : jvm' = jvm
    · subst hj
      cases (Function.update_self _ _ _).symm.trans ha
    · rw [Function.update_of_ne hj]
      exact hs.localCache jvm' a ((Function.update_of_ne hj _ _).symm.trans ha)
  · have hserves := hs.tasks th task htask
    refine ⟨hserves.since.trans (hle task.jvm), fun a ha => ?_, hserves.result⟩
    show Fresh s (Function.update s.consumed jvm (max (s.consumed jvm) version) task.jvm) a
    by_cases hj : task.jvm = jvm
    · subst hj
      rw [Function.update_self]
      rcases max_choice (s.consumed task.jvm) version with hmax | hmax
      · rw [hmax]
        exact hserves.held a ha
      · rw [hmax]
        exact fun _ => hheld th task htask rfl a ha
    · rw [Function.update_of_ne hj]
      exact hserves.held a ha

omit [DecidableEq Jvm] in
omit [DecidableEq Thread] in
/-- A step that leaves the calls. -/
theorem Newer.drops_only (hs : Newer column s) (hinv : Inv column t)
    (hhistory : t.history = s.history) (hattempts : t.attempts = s.attempts)
    (hconsumed : t.consumed = s.consumed) (htasks : t.tasks = s.tasks)
    (hdb : t.store.db = s.store.db)
    (hhash : ∀ a, t.store.activity = some a → s.store.activity = some a)
    (hlocal : ∀ jvm a, t.store.localCache jvm = some a → s.store.localCache jvm = some a) :
    Newer column t := by
  refine hs.drops hinv hhistory hattempts hconsumed hdb hhash hlocal (fun th work u hw hu => ?_)
    fun th task h => Or.inl (htasks ▸ h)
  refine ⟨work, ?_, hu, id⟩
  rw [State.work, htasks]
  exact hw

omit [DecidableEq Jvm] in
/-- A step of a thread that has no undecided update, or goes on with it. -/
theorem Newer.drops_task {new : Option (Task Jvm)} (hs : Newer column s) (hinv : Inv column t)
    (hhistory : t.history = s.history) (hattempts : t.attempts = s.attempts)
    (hconsumed : t.consumed = s.consumed) (hdb : t.store.db = s.store.db)
    (hhash : t.store.activity = s.store.activity)
    (hlocal : t.store.localCache = s.store.localCache)
    (htasks : t.tasks = Function.update s.tasks th new)
    (hundecided : ∀ work u, s.work th = some work → work.undecided = some u →
      ∃ task', new = some task' ∧ task'.work.undecided = some u ∧
        (work.dirty = true → task'.work.dirty = true))
    (hnew : ∀ task', new = some task' → Serves t task') : Newer column t := by
  refine hs.drops hinv hhistory hattempts hconsumed hdb (fun a h => hhash ▸ h)
    (fun jvm a h => hlocal ▸ h) (fun other work u hw hu => ?_) (forall_tasks htasks hnew)
  by_cases hother : other = th
  · subst hother
    obtain ⟨task', rfl, hu', hdirty⟩ := hundecided work u hw hu
    exact ⟨task'.work, by simp [State.work, htasks], hu', hdirty⟩
  · exact ⟨work, by simpa [State.work, htasks, hother] using hw, hu, id⟩

/-- A call that is over has nothing undecided. -/
theorem undecided_of_ends (h : work.ends = true) : work.undecided = none := by
  unfold Work.ends at h
  split at h
  · rfl
  · rfl
  · rfl
  · rfl
  · cases h

/-- An update that throws before its commit is compensated. -/
theorem undecided_thrown (hthrows : work.throws = true) (hkept : work.restored = none)
    {u : SeckillVoucherUpdateDTO} (hu : work.undecided = some u) :
    ∃ work', work.thrown = some work' ∧ work'.undecided = some u ∧ work'.dirty = true := by
  unfold Work.undecided at hu
  split at hu <;> cases hu
  · exact ⟨_, rfl, rfl, rfl⟩
  · exact ⟨_, rfl, rfl, rfl⟩
  · cases hthrows
  · cases hkept

omit [DecidableEq Jvm] in
/-- An exception of a call that undoes no update: where one is under way the compensation is
next. -/
theorem Newer.throw (hs : Newer column s) (hinv : Inv column t) {task : Task Jvm}
    (htask : s.tasks th = some task) (hthrows : task.work.throws = true)
    (hrestored : task.work.restored = none)
    (ht : t = { s.withTask th (task.work.thrown.map fun work => ⟨task.jvm, work⟩) with
      store := s.store.unlock th
      attempts :=
        if task.work.thrown.isSome then s.attempts else Function.update s.attempts th none }) :
    Newer column t := by
  subst ht
  have hwork : s.work th = some task.work := congrArg (Option.map Task.work) htask
  have hgoes : ∀ {u}, task.work.undecided = some u → ∃ work', task.work.thrown = some work' ∧
      work'.undecided = some u ∧ work'.dirty = true :=
    fun hu => undecided_thrown hthrows hrestored hu
  refine hs.drops_task hinv rfl ?_ rfl rfl rfl rfl rfl (fun work u hw hu => ?_) fun task' h => ?_
  · show (if task.work.thrown.isSome then s.attempts
      else Function.update s.attempts th none) = s.attempts
    split
    · rfl
    · -- without a compensation the call had no update under way
      rename_i hnone
      refine Function.update_eq_self_iff.mpr ?_
      cases hattempt : s.attempts th with
      | none => rfl
      | some x =>
        obtain ⟨-, work', hwork', hu⟩ := hs.attempts th x.1 x.2 hattempt
        obtain rfl : task.work = work' := Option.some.inj (hwork.symm.trans hwork')
        obtain ⟨work', hthrown, -⟩ := hgoes hu
        exact absurd (hthrown ▸ rfl) hnone
  · obtain rfl : task.work = work := Option.some.inj (hwork.symm.trans hw)
    obtain ⟨work', hthrown, hu', hdirty⟩ := hgoes hu
    exact ⟨⟨task.jvm, work'⟩, by rw [hthrown]; rfl, hu', fun _ => hdirty⟩
  · obtain ⟨work', hthrown, rfl⟩ := Option.map_eq_some_iff.mp h
    unfold Work.thrown at hthrown
    split at hthrown <;> cases hthrown <;> exact serves_of_nothing (Nat.zero_le _) rfl rfl

/-- **Every fenced step keeps the invariant.** -/
theorem newer_step {a : Action Thread Jvm} (hfenced : Fenced column s a) (hs : Newer column s)
    (hstep : step column s a = some t) : Newer column t := by
  have hinv : Inv column t := inv_step hfenced.1 hs.inv hstep
  cases a with
  | start th jvm call =>
    simp only [step] at hstep
    split at hstep
    · rename_i hidle
      cases hstep
      refine hs.drops_task hinv rfl rfl rfl rfl rfl rfl rfl (fun work u hw => ?_) fun task h => ?_
      · simp [State.work, hidle] at hw
      · cases h
        cases call with
        | update u => exact serves_of_nothing (Nat.zero_le _) rfl rfl
        | rebuild => exact serves_of_nothing (Nat.zero_le _) rfl rfl
        | query => exact serves_of_nothing le_rfl rfl rfl
    · cases hstep
  | next th locked expired =>
    simp only [step] at hstep
    split at hstep
    · cases hstep
    · rename_i task htask
      have hwork : s.work th = some task.work := congrArg (Option.map Task.work) htask
      split at hstep
      · rename_i hends
        cases hstep
        refine hs.drops_task hinv rfl rfl rfl rfl rfl rfl rfl (fun work u hw hu => ?_)
          fun task h => by cases h
        obtain rfl : task.work = work := Option.some.inj (hwork.symm.trans hw)
        rw [undecided_of_ends hends] at hu
        cases hu
      · obtain ⟨r, hr, rfl⟩ := Option.map_eq_some_iff.mp hstep
        cases hrestored : task.work.restored with
        | none => exact hs.next hinv ⟨htask, hr, rfl, rfl, rfl, rfl⟩ (hfenced.1 _ hwork) hrestored
        | some old =>
          have hleft := hfenced.2 task htask old hrestored
          obtain ⟨jvm, work⟩ := task
          obtain ⟨u, rfl⟩ := restored_eq hrestored
          cases hr
          exact hs.withdraw hinv htask hrestored hleft (List.append_nil _) rfl rfl rfl rfl rfl
            fun task' h => by cases h; exact ⟨rfl, rfl, rfl⟩
  | throw th =>
    simp only [step] at hstep
    split at hstep
    · cases hstep
    · rename_i task htask
      split at hstep
      swap
      · cases hstep
      rename_i hthrows
      cases hstep
      cases hrestored : task.work.restored with
      | none => exact hs.throw hinv htask hthrows hrestored rfl
      | some old =>
        have hleft := hfenced.2 task htask old hrestored
        obtain ⟨jvm, work⟩ := task
        obtain ⟨u, rfl⟩ := restored_eq hrestored
        exact hs.withdraw hinv htask hrestored hleft rfl rfl rfl rfl rfl rfl
          fun task' h => by cases h
  | consume jvm version =>
    simp only [step] at hstep
    split at hstep
    · rename_i hversion
      exact hs.consume hinv hfenced.2 hversion.2 (Option.some.inj hstep).symm
    · cases hstep
  | expireLocal jvm =>
    cases hstep
    refine hs.drops_only hinv rfl rfl rfl rfl rfl (fun _ h => h) fun jvm' a h => ?_
    rcases localCache_update h with h | ⟨-, h⟩
    · exact h
    · cases h
  | expireActivity =>
    cases hstep
    exact hs.drops_only hinv rfl rfl rfl rfl rfl (fun _ h => by cases h) fun _ _ h => h
  | expireNull =>
    cases hstep
    exact hs.drops_only hinv rfl rfl rfl rfl rfl (fun _ h => h) fun _ _ h => h

/-! ## While the hash is there -/

/-- A query that finds the hash goes no further, and has a result. -/
def Work.answers : Work → Bool
  | .query _ .localGet => true
  | .query _ .readRedis => true
  | .query _ (.localPut _) => true
  | .query _ (.returning result) => result.isSome
  | .query _ _ => false
  | _ => true

end

/-- An update to another status. -/
def setStatus (status : ℤ) : Call := .update ⟨none, none, some status, false⟩

/-- A query on the other JVM reads what an update has written that is then rolled back. -/
def fillBeforeRollback (writer reader : Fin 2) : List (Action (Fin 2) (Fin 2)) :=
  [.start writer writer (setStatus 2)] ++ advance writer 8 ++ [.consume reader 1] ++
    [.start writer writer (setStatus 3)] ++ advance writer 4 ++
    [.start reader reader .query] ++ advance reader 4 ++ [.throw writer] ++ advance writer 3 ++
    [.start reader reader .query] ++ advance reader 1

/-- **An entry that was never committed.** Every update has ended, the rows and the hash have the
status 2, and a query on JVM 1 returns the status 3 of the one that was rolled back. -/
theorem undone_entry_returned :
    ∃ t, run (step timestampColumn) (State.init activityOfTenSeconds false fun _ => none)
        (fillBeforeRollback 0 1) = some t ∧
      t.history = [⟨0, 10000, 2⟩] ∧ t.tasks 0 = none ∧ t.store.activity = some ⟨0, 10000, 2⟩ ∧
      t.tasks 1 = some ⟨1, .query 1 (.returning (some ⟨0, 10000, 3⟩))⟩ ∧
      ¬ AtLeastAsNew t.history t.attempts 1 ⟨0, 10000, 3⟩ := by
  obtain ⟨t, hrun, hends⟩ := (Option.any_eq_true _ _).mp
    (show (run (step timestampColumn) (State.init activityOfTenSeconds false fun _ => none)
        (fillBeforeRollback 0 1)).any (fun t => decide (t.history = [⟨0, 10000, 2⟩] ∧
          t.tasks 0 = none ∧ t.store.activity = some ⟨0, 10000, 2⟩ ∧
          t.tasks 1 = some ⟨1, .query 1 (.returning (some ⟨0, 10000, 3⟩))⟩ ∧
          ¬ AtLeastAsNew t.history t.attempts 1 ⟨0, 10000, 3⟩)) = true by decide +kernel)
  exact ⟨t, hrun, of_decide_eq_true hends⟩

end Hmdp.Voucher
