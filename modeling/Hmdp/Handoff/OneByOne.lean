import Hmdp.Handoff.Batch
import Hmdp.Lib.Machine
import Mathlib.Algebra.GroupWithZero.Nat

/-!
# The batched relay refines handling the members one by one

A round of the relay for one voucher is its list of tasks; a step runs the first of them. A
statement that is rolled back loses its `AUTO_INCREMENT` ids, and others may take ids in between,
so a step is labelled with the number of ids lost before it.

`finish` handles one by one whatever a list of tasks still has to do. A step does not change what
`finish` arrives at (`finish_step`): a batch that is accepted is accepted row by row, and the
halves of a refused one are its rows in the same order. So a round that has no tasks left has
arrived where the members one by one lead. The quarantine of the malformed members comes first in
the round and in its turn there, which is the same since writes for different members commute.

* **`relay_refines_one_by_one`**: a whole round, and the laws of its steps.
-/

namespace Hmdp.Handoff

open Hmdp.Lib Hmdp.Model

variable {rejects : Reservation → Bool} {now : Time} {v : VoucherId}

/-! ## One member at a time -/

/-- A member that parses is inserted or verified and completed, or quarantined. -/
def handleEvent (rejects : Reservation → Bool) (v : VoucherId) (stores : Redis × Db)
    (p : Text × SeckillOrderOutboxEvent) : Redis × Db :=
  match insertCommitted rejects [p.2] stores.2 with
  | .ok (_, db) => ((handoffComplete v [(p.1, p.2.orderId)] stores.1).2, db)
  | .error _ => ((handoffQuarantine v p.1 .dataIntegrity stores.1).2, stores.2)

/-- A member is handled on its own. -/
def handleOne (rejects : Reservation → Bool) (now : Time) (v : VoucherId) (stores : Redis × Db)
    (member : Text) : Redis × Db :=
  match parse now v member with
  | none => ((handoffQuarantine v member .malformed stores.1).2, stores.2)
  | some event => handleEvent rejects v stores (member, event)

/-- The members one by one. -/
def oneByOne (rejects : Reservation → Bool) (now : Time) (v : VoucherId) (members : List Text)
    (stores : Redis × Db) : Redis × Db :=
  members.foldl (handleOne rejects now v) stores

/-- Equal stores, up to `AUTO_INCREMENT` ids. -/
structure SameStores (a b : Redis × Db) : Prop where
  redis : a.1 = b.1
  db : SameEvents a.2 b.2

theorem SameStores.refl (a : Redis × Db) : SameStores a a := ⟨rfl, .refl a.2⟩

theorem SameStores.symm {a b : Redis × Db} (h : SameStores a b) : SameStores b a :=
  ⟨h.redis.symm, h.db.symm⟩

theorem SameStores.trans {a b c : Redis × Db} (h : SameStores a b) (h' : SameStores b c) :
    SameStores a c :=
  ⟨h.redis.trans h'.redis, h.db.trans h'.db⟩

/-- The events are those the members parse to. -/
def Parsed (now : Time) (v : VoucherId) (members : List Text)
    (events : List SeckillOrderOutboxEvent) : Prop :=
  List.Forall₂ (fun m e => parse now v m = some e) members events

theorem fresh_of_parse {m : Text} {e : SeckillOrderOutboxEvent} (h : parse now v m = some e) :
    e.retryCount = 0 := by
  obtain ⟨r, -, rfl⟩ := Option.map_eq_some_iff.mp h
  rfl

theorem Parsed.fresh {members : List Text} {events : List SeckillOrderOutboxEvent}
    (h : Parsed now v members events) : ∀ e ∈ events, e.retryCount = 0 := by
  induction h with
  | nil => simp
  | cons hm _ ih =>
    intro e he
    rcases List.mem_cons.mp he with rfl | he
    · exact fresh_of_parse hm
    · exact ih e he

/-- **What `insertCommitted` does**, by the rows it is accepted over. -/
theorem insertCommitted_cases (rejects : Reservation → Bool) {events : List SeckillOrderOutboxEvent}
    (hfresh : ∀ e ∈ events, e.retryCount = 0) (db : Db) :
    (Accepted rejects (outboxEvents db) events ∧
        ∃ accepted, insertCommitted rejects events db =
          .ok (accepted, (insertIgnoreBatch events db).2)) ∨
      (¬Accepted rejects (outboxEvents db) events ∧
        ∃ error, insertCommitted rejects events db = .error error) := by
  rw [← insertCommitted_isOk_iff_accepted hfresh]
  cases h : insertCommitted rejects events db with
  | ok r =>
    obtain ⟨accepted, db'⟩ := r
    have hdb := (insertCommitted_ok h).2.1
    exact Or.inl ⟨⟨_, rfl⟩, accepted, by rw [hdb]⟩
  | error error => exact Or.inr ⟨by simp, error, rfl⟩

/-- Handling a member does not depend on the ids. -/
theorem handleEvent_same {a b : Redis × Db} {p : Text × SeckillOrderOutboxEvent}
    (hfresh : p.2.retryCount = 0) (h : SameStores a b) :
    SameStores (handleEvent rejects v a p) (handleEvent rejects v b p) := by
  have hfresh : ∀ e ∈ [p.2], e.retryCount = 0 := by simpa using hfresh
  unfold handleEvent
  rcases insertCommitted_cases rejects hfresh a.2 with ⟨ha, _, heq⟩ | ⟨ha, _, heq⟩ <;>
    rcases insertCommitted_cases rejects hfresh b.2 with ⟨hb, _, heq'⟩ | ⟨hb, _, heq'⟩
  · rw [heq, heq']
    exact ⟨by rw [h.redis], sameEvents_insertIgnoreBatch hfresh h.db⟩
  · rw [h.db.outbox] at ha
    exact absurd ha hb
  · rw [h.db.outbox] at ha
    exact absurd hb ha
  · rw [heq, heq']
    exact ⟨by rw [h.redis], h.db⟩

/-- A batch, row by row. -/
def each (rejects : Reservation → Bool) (v : VoucherId) (events : List SeckillOrderOutboxEvent)
    (members : List Text) (stores : Redis × Db) : Redis × Db :=
  (members.zip events).foldl (handleEvent rejects v) stores

theorem each_same {events : List SeckillOrderOutboxEvent} {members : List Text}
    (hp : Parsed now v members events) {a b : Redis × Db} (h : SameStores a b) :
    SameStores (each rejects v events members a) (each rejects v events members b) := by
  unfold each
  induction hp generalizing a b with
  | nil => exact h
  | cons hm _ ih => exact ih (handleEvent_same (fresh_of_parse hm) h)

/-- **An accepted batch is accepted row by row**, with the same result. -/
theorem each_accepted {events : List SeckillOrderOutboxEvent} {members : List Text}
    (hp : Parsed now v members events) {stores : Redis × Db}
    (h : Accepted rejects (outboxEvents stores.2) events) :
    SameStores (each rejects v events members stores)
      ((handoffComplete v (completeArguments events members) stores.1).2,
        (insertIgnoreBatch events stores.2).2) := by
  induction hp generalizing stores with
  | nil =>
    refine ⟨by simp [each, completeArguments, handoffComplete], rfl, rfl, ?_⟩
    rw [outboxEvents_insertIgnoreBatch (by simp)]
    simp [insertIgnore, newRows, each]
  | @cons m e members events hm hp ih =>
    have hone : ∀ x ∈ [e], x.retryCount = 0 := by simpa using fresh_of_parse hm
    have hall : ∀ x ∈ e :: events, x.retryCount = 0 := by
      intro x hx
      rcases List.mem_cons.mp hx with rfl | hx
      · exact fresh_of_parse hm
      · exact Parsed.fresh hp x hx
    obtain ⟨hfirst, hrest⟩ : Accepted rejects (outboxEvents stores.2) [e] ∧
        Accepted rejects (insertIgnore eventKeys.clash (outboxEvents stores.2) [e]) events :=
      accepted_append.mp h
    rcases insertCommitted_cases rejects hone stores.2 with ⟨-, accepted, heq⟩ | ⟨hrefused, -⟩
    · have hhandle : handleEvent rejects v stores (m, e) =
          ((handoffComplete v [(m, e.orderId)] stores.1).2,
            (insertIgnoreBatch [e] stores.2).2) := by
        simp only [handleEvent, heq]
      have htable := outboxEvents_insertIgnoreBatch hone stores.2
      have hnext :
          Accepted rejects (outboxEvents (handleEvent rejects v stores (m, e)).2) events := by
        rw [hhandle]
        exact htable ▸ hrest
      refine (ih hnext).trans ?_
      rw [hhandle]
      refine ⟨(handoffComplete_cons v (m, e.orderId) _ stores.1).symm, rfl, rfl, ?_⟩
      rw [outboxEvents_insertIgnoreBatch (Parsed.fresh hp), htable,
        outboxEvents_insertIgnoreBatch hall, ← insertIgnore_append, List.singleton_append]
    · exact absurd hfirst hrefused

/-! ## The round -/

/-- A relay in its round for a voucher. -/
structure Round where
  tasks : List RelayTask
  redis : Redis
  db : Db
  /-- ghost: the members the scripts have been called with -/
  left : List Text

/-- The relay has fetched the members and parsed them. -/
def begin (now : Time) (v : VoucherId) (members : List Text) (stores : Redis × Db) : Round :=
  ⟨fetchTasks now v members, stores.1, stores.2, []⟩

/-- The members a task is about. -/
def membersOf : RelayTask → List Text
  | .quarantine _ member _ => [member]
  | .persist _ _ members => members
  | .complete _ _ members => members

/-- The members the script of a task takes out. -/
def takes : RelayTask → List Text
  | .persist _ _ _ => []
  | task => membersOf task

/-- The next task, after `lost` ids have been lost. -/
def step (rejects : Reservation → Bool) (s : Round) (lost : ℕ) : Option Round :=
  match s.tasks with
  | [] => none
  | task :: rest =>
    (runTask rejects task s.redis (loseIds lost s.db)).map fun r =>
      ⟨r.1 ++ rest, r.2.1, r.2.2, s.left ++ takes task⟩

/-- What is left to do of a task, one by one. -/
def finishTask (rejects : Reservation → Bool) (stores : Redis × Db) : RelayTask → Redis × Db
  | .quarantine v member reason => ((handoffQuarantine v member reason stores.1).2, stores.2)
  | .persist v events members => each rejects v events members stores
  | .complete v events members =>
    ((handoffComplete v (completeArguments events members) stores.1).2, stores.2)

/-- The tasks of a round, finished in their order. -/
def finish (rejects : Reservation → Bool) (tasks : List RelayTask) (stores : Redis × Db) :
    Redis × Db :=
  tasks.foldl (finishTask rejects) stores

/-- The events and members of a task belong together. -/
def TaskOk (now : Time) (v : VoucherId) : RelayTask → Prop
  | .quarantine w _ _ => w = v
  | .persist w events members => w = v ∧ Parsed now v members events
  | .complete w events members => w = v ∧ Parsed now v members events

theorem finishTask_same {task : RelayTask} (ht : TaskOk now v task) {a b : Redis × Db}
    (h : SameStores a b) : SameStores (finishTask rejects a task) (finishTask rejects b task) := by
  cases task with
  | quarantine w m reason => exact ⟨by simp only [finishTask, h.redis], h.db⟩
  | persist w events members =>
    obtain ⟨rfl, hp⟩ := ht
    exact each_same hp h
  | complete w events members => exact ⟨by simp only [finishTask, h.redis], h.db⟩

theorem finish_same {tasks : List RelayTask} (ht : ∀ task ∈ tasks, TaskOk now v task)
    {a b : Redis × Db} (h : SameStores a b) :
    SameStores (finish rejects tasks a) (finish rejects tasks b) := by
  unfold finish
  induction tasks generalizing a b with
  | nil => exact h
  | cons task tasks ih =>
    exact ih (fun t htail => ht t (List.mem_cons_of_mem _ htail))
      (finishTask_same (ht task List.mem_cons_self) h)

/-- The two halves of a batch are its rows in the same order. -/
theorem each_halves (rejects : Reservation → Bool) {events : List SeckillOrderOutboxEvent}
    {ms : List Text} (hp : Parsed now v ms events) (middle : ℕ) (stores : Redis × Db) :
    each rejects v (events.drop middle) (ms.drop middle)
      (each rejects v (events.take middle) (ms.take middle) stores) =
        each rejects v events ms stores := by
  have hzip : (ms.take middle).zip (events.take middle) ++
      (ms.drop middle).zip (events.drop middle) = ms.zip events := by
    rw [← List.zip_append (by simp [List.length_take, hp.length_eq]), List.take_append_drop,
      List.take_append_drop]
  unfold each
  rw [← List.foldl_append, hzip]

/-- **A step of the bisection** does not change what the members one by one lead to. -/
theorem finish_runTask {task : RelayTask} (ht : TaskOk now v task) {redis redis' : Redis}
    {db db' : Db} {more : List RelayTask} {lost : ℕ}
    (hrun : runTask rejects task redis (loseIds lost db) = some (more, redis', db')) :
    SameStores (finish rejects more (redis', db')) (finishTask rejects (redis, db) task) := by
  have hids : SameStores (redis, loseIds lost db) (redis, db) := ⟨rfl, sameEvents_loseIds lost db⟩
  unfold runTask at hrun
  cases task with
  | quarantine w m reason =>
    cases hrun
    exact ⟨rfl, hids.db⟩
  | complete w events ms =>
    obtain ⟨r, hb, hr⟩ := Option.map_eq_some_iff.mp hrun
    cases hr
    refine ⟨?_, hids.db⟩
    unfold completeBatch at hb
    split at hb
    · rename_i hnil
      cases hb
      have hargs : completeArguments events ms = [] := by
        rcases hnil with rfl | rfl <;> simp [completeArguments]
      simp [finish, finishTask, hargs, handoffComplete]
    · split at hb
      · exact absurd hb (by simp)
      · exact (congrArg Prod.snd (Option.some.inj hb)).symm
  | persist w events ms =>
    obtain ⟨rfl, hp⟩ := ht
    simp only at hrun
    split at hrun
    · rename_i hnil
      subst hnil
      cases hrun
      exact ⟨by simp [finish, finishTask, each], by simpa [finish, finishTask, each] using hids.db⟩
    rcases insertCommitted_cases rejects hp.fresh (loseIds lost db) with
      ⟨ha, accepted, heq⟩ | ⟨ha, error, heq⟩
    · rw [heq] at hrun
      cases hrun
      have heach : SameStores (each rejects w events ms (redis, loseIds lost db))
          ((handoffComplete w (completeArguments events ms) redis).2,
            (insertIgnoreBatch events (loseIds lost db)).2) := each_accepted hp ha
      exact heach.symm.trans (each_same hp hids)
    · rw [heq] at hrun
      cases hrun
      unfold isolate
      split
      · rename_i hone
        obtain ⟨e, rfl⟩ := List.length_eq_one_iff.mp hone
        cases hp with
        | cons hm hnil =>
          cases hnil
          refine SameStores.trans ?_ (handleEvent_same (fresh_of_parse hm) hids)
          simp only [handleEvent, heq]
          exact .refl _
      · have hhalves := each_halves rejects hp (events.length / 2) (redis, loseIds lost db)
        refine SameStores.trans ?_ (each_same hp hids)
        rw [← hhalves]
        exact .refl _

/-! ## The malformed members first -/

/-- Handling a member commutes with the quarantine of another. -/
theorem handleOne_quarantine {m m' : Text} (hne : m ≠ m') (reason : QuarantineReason)
    (stores : Redis × Db) :
    handleOne rejects now v ((handoffQuarantine v m reason stores.1).2, stores.2) m' =
      ((handoffQuarantine v m reason (handleOne rejects now v stores m').1).2,
        (handleOne rejects now v stores m').2) := by
  unfold handleOne
  cases parse now v m' with
  | none => exact Prod.ext (quarantine_comm hne.symm _ _ _) rfl
  | some event =>
    simp only [handleEvent]
    cases insertCommitted rejects [event] stores.2 with
    | ok r =>
      simp only [handoffComplete_eq]
      exact Prod.ext (quarantine_takeOut_comm hne _ _ _ _).symm rfl
    | error error => exact Prod.ext (quarantine_comm hne.symm _ _ _) rfl

/-- The quarantine of the malformed members. -/
def quarantineAll (v : VoucherId) (ms : List Text) (stores : Redis × Db) : Redis × Db :=
  ms.foldl (fun s m => ((handoffQuarantine v m .malformed s.1).2, s.2)) stores

theorem handleOne_quarantineAll {m' : Text} {ms : List Text} (hm : m' ∉ ms)
    (stores : Redis × Db) :
    handleOne rejects now v (quarantineAll v ms stores) m' =
      quarantineAll v ms (handleOne rejects now v stores m') := by
  induction ms generalizing stores with
  | nil => rfl
  | cons m ms ih =>
    rw [List.mem_cons, not_or] at hm
    unfold quarantineAll at ih ⊢
    rw [List.foldl_cons, List.foldl_cons, ih hm.2, handleOne_quarantine (Ne.symm hm.1)]

/-- **The members in order**: the malformed ones may come first. -/
theorem oneByOne_eq {ms : List Text} (hms : ms.Nodup) (stores : Redis × Db) :
    oneByOne rejects now v ms stores =
      oneByOne rejects now v (ms.filter fun m => (parseMember v m).isSome)
        (quarantineAll v (ms.filter fun m => (parseMember v m).isNone) stores) := by
  induction ms generalizing stores with
  | nil => rfl
  | cons m ms ih =>
    obtain ⟨hm, hms⟩ := List.nodup_cons.mp hms
    have hstep : oneByOne rejects now v (m :: ms) stores =
        oneByOne rejects now v ms (handleOne rejects now v stores m) := rfl
    rw [hstep, ih hms]
    cases hparse : parseMember v m with
    | none =>
      have hone : handleOne rejects now v stores m =
          ((handoffQuarantine v m .malformed stores.1).2, stores.2) := by
        simp [handleOne, parse, hparse]
      rw [List.filter_cons_of_neg (by simp [hparse]), List.filter_cons_of_pos (by simp [hparse]),
        hone]
      rfl
    | some r =>
      rw [List.filter_cons_of_pos (by simp [hparse]), List.filter_cons_of_neg (by simp [hparse]),
        ← handleOne_quarantineAll fun h => hm (List.mem_filter.mp h).1]
      rfl

/-- The members that parse, with their events. -/
theorem parsed_filter (now : Time) (v : VoucherId) (ms : List Text) :
    Parsed now v (ms.filter fun m => (parseMember v m).isSome) (ms.filterMap (parse now v)) := by
  induction ms with
  | nil => exact .nil
  | cons m ms ih =>
    cases hparse : parseMember v m with
    | none =>
      rw [List.filter_cons_of_neg (by simp [hparse]),
        List.filterMap_cons_none (by simp [parse, hparse])]
      exact ih
    | some r =>
      have hp : parse now v m = some (SeckillOrderOutboxEvent.pending now r) := by
        simp [parse, hparse]
      rw [List.filter_cons_of_pos (by simp [hparse]), List.filterMap_cons_some hp]
      exact .cons hp ih

/-- A batch row by row is its members one by one. -/
theorem each_eq_oneByOne {ms : List Text} {events : List SeckillOrderOutboxEvent}
    (hp : Parsed now v ms events) (stores : Redis × Db) :
    each rejects v events ms stores = oneByOne rejects now v ms stores := by
  unfold each oneByOne
  induction hp generalizing stores with
  | nil => rfl
  | @cons m e ms events hm _ ih =>
    have hone : handleOne rejects now v stores m = handleEvent rejects v stores (m, e) := by
      simp only [handleOne, hm]
    rw [List.zip_cons_cons, List.foldl_cons, List.foldl_cons, ih, hone]

/-- **What a round has to do** is to handle the members it has fetched. -/
theorem finish_fetchTasks {ms : List Text} (hms : ms.Nodup) (stores : Redis × Db) :
    finish rejects (fetchTasks now v ms) stores = oneByOne rejects now v ms stores := by
  have hquarantine : ∀ (l : List Text) (stores : Redis × Db),
      finish rejects (l.map fun m => RelayTask.quarantine v m .malformed) stores =
        quarantineAll v l stores := by
    intro l
    induction l with
    | nil => exact fun _ => rfl
    | cons m l ih => exact fun stores => ih _
  rw [oneByOne_eq hms, ← each_eq_oneByOne (parsed_filter now v ms), ← hquarantine]
  unfold finish fetchTasks
  rw [List.foldl_append]
  rfl

/-! ## A step -/

/-- How many steps a task can take. -/
def weight : RelayTask → ℕ
  | .persist _ events _ => max 1 (3 * events.length - 1)
  | _ => 1

/-- Whether a task is a batch that is still to be committed. -/
def isBatch : RelayTask → Bool
  | .persist _ _ _ => true
  | _ => false

/-- **What running a task does**: its members leave the handoff set now or with the tasks it leaves,
which have fewer steps; a script leaves nothing to do. -/
structure Runs (now : Time) (v : VoucherId) (task : RelayTask) (redis redis' : Redis)
    (more : List RelayTask) : Prop where
  ok : ∀ t ∈ more, TaskOk now v t
  members : (takes task ++ more.flatMap membersOf).Perm (membersOf task)
  handoff : redis'.handoff =
    Function.update redis.handoff v ((redis.handoff v).zrem (takes task)).2
  weight : (more.map weight).sum + 1 ≤ weight task
  script : isBatch task = false → more = []
  order : more.Pairwise fun t u => isBatch t = true → isBatch u = true

/-- The handoff sets when nothing is taken out. -/
theorem handoff_takes_nil (v : VoucherId) (redis : Redis) :
    redis.handoff = Function.update redis.handoff v ((redis.handoff v).zrem []).2 := by
  rw [ZSet.zrem_nil, Function.update_eq_self]

theorem runs_complete {events : List SeckillOrderOutboxEvent} {ms : List Text}
    (hp : Parsed now v ms events) {redis redis' : Redis} {n : ℤ}
    (h : completeBatch v events ms redis = some (n, redis')) :
    Runs now v (.complete v events ms) redis redis' [] := by
  refine ⟨by simp, by simp [takes, membersOf], ?_, by simp [weight], fun _ => rfl,
    List.Pairwise.nil⟩
  unfold completeBatch at h
  have hlen := hp.length_eq
  split at h
  · rename_i hnil
    have hms : ms = [] := by
      rcases hnil with rfl | rfl
      · exact List.length_eq_zero_iff.mp hlen
      · rfl
    subst hms
    cases h
    exact handoff_takes_nil v redis
  · split at h
    · exact absurd h (by simp)
    · have hredis : (handoffComplete v (completeArguments events ms) redis).2 = redis' :=
        congrArg Prod.snd (Option.some.inj h)
      have hfst : (completeArguments events ms).map Prod.fst = ms :=
        List.map_fst_zip (by simp [hlen])
      rw [← hredis, handoffComplete_eq, hfst]
      rfl

theorem runs_isolate {events : List SeckillOrderOutboxEvent} {ms : List Text}
    (hp : Parsed now v ms events) (hne : events ≠ []) (redis : Redis) :
    Runs now v (.persist v events ms) redis redis (isolate v events ms) := by
  unfold isolate
  split
  · rename_i hone
    obtain ⟨e, rfl⟩ := List.length_eq_one_iff.mp hone
    cases hp with
    | cons hm hnil =>
      cases hnil
      exact ⟨by simp [TaskOk], by simp [takes, membersOf], handoff_takes_nil v redis,
        by simp [weight], by simp [isBatch], by simp⟩
  · have hlen := List.length_pos_iff.mpr hne
    refine ⟨?_, ?_, handoff_takes_nil v redis, ?_, by simp [isBatch], by simp [isBatch]⟩
    · intro t ht
      rcases List.mem_cons.mp ht with rfl | ht
      · exact ⟨rfl, List.forall₂_take _ hp⟩
      · rw [List.mem_singleton.mp ht]
        exact ⟨rfl, List.forall₂_drop _ hp⟩
    · simp [takes, membersOf]
    · simp only [List.map_cons, List.map_nil, List.sum_cons, List.sum_nil, weight,
        List.length_take, List.length_drop]
      omega

theorem runs_runTask {task : RelayTask} (ht : TaskOk now v task) {redis redis' : Redis}
    {db db' : Db} {more : List RelayTask}
    (hrun : runTask rejects task redis db = some (more, redis', db')) :
    Runs now v task redis redis' more := by
  unfold runTask at hrun
  cases task with
  | quarantine w m reason =>
    cases ht
    cases hrun
    exact ⟨by simp, by simp [takes, membersOf], handoff_handoffQuarantine v m reason redis,
      by simp [weight], fun _ => rfl, List.Pairwise.nil⟩
  | complete w events ms =>
    obtain ⟨rfl, hp⟩ := ht
    obtain ⟨⟨n, r⟩, hb, hr⟩ := Option.map_eq_some_iff.mp hrun
    cases hr
    exact runs_complete hp hb
  | persist w events ms =>
    obtain ⟨rfl, hp⟩ := ht
    simp only at hrun
    split at hrun
    · rename_i hnil
      subst hnil
      have hms : ms = [] := List.length_eq_zero_iff.mp hp.length_eq
      subst hms
      cases hrun
      exact ⟨by simp, by simp [takes, membersOf], handoff_takes_nil w redis, by simp [weight],
        fun _ => rfl, List.Pairwise.nil⟩
    rename_i hne
    split at hrun
    · cases hrun
      have hlen := List.length_pos_iff.mpr hne
      refine ⟨by simp [TaskOk, hp], by simp [takes, membersOf], handoff_takes_nil w redis, ?_,
        by simp [isBatch], by simp⟩
      simp only [List.map_cons, List.map_nil, List.sum_cons, List.sum_nil, weight]
      omega
    · cases hrun
      exact runs_isolate hp hne redis

/-- Its arguments never raise the exception of `completeBatch`. -/
theorem exists_runTask (rejects : Reservation → Bool) {task : RelayTask} (ht : TaskOk now v task)
    (redis : Redis) (db : Db) : ∃ r, runTask rejects task redis db = some r := by
  unfold runTask
  cases task with
  | quarantine w m reason => exact ⟨_, rfl⟩
  | complete w events ms =>
    obtain ⟨rfl, hp⟩ := ht
    have hlen : ¬ms.length < events.length := Nat.not_lt.mpr (Nat.le_of_eq hp.length_eq.symm)
    simp only [completeBatch, if_neg hlen]
    split <;> exact ⟨_, rfl⟩
  | persist w events ms =>
    simp only
    split
    · exact ⟨_, rfl⟩
    · split <;> exact ⟨_, rfl⟩

/-! ## Runs -/

/-- What holds all through the round. -/
structure Inv (rejects : Reservation → Bool) (now : Time) (v : VoucherId) (fetched : List Text)
    (stores : Redis × Db) (s : Round) : Prop where
  ok : ∀ t ∈ s.tasks, TaskOk now v t
  order : s.tasks.Pairwise fun t u => isBatch t = true → isBatch u = true
  members : (s.left ++ s.tasks.flatMap membersOf).Perm fetched
  handoff : s.redis.handoff =
    Function.update stores.1.handoff v ((stores.1.handoff v).zrem s.left).2
  result : SameStores (finish rejects s.tasks (s.redis, s.db))
    (oneByOne rejects now v fetched stores)

variable {fetched : List Text} {stores : Redis × Db} {s t : Round}

theorem inv_begin (hnodup : fetched.Nodup) :
    Inv rejects now v fetched stores (begin now v fetched stores) where
  ok t ht := by
    rcases List.mem_append.mp ht with ht | ht
    · obtain ⟨m, -, rfl⟩ := List.mem_map.mp ht
      rfl
    · rw [List.mem_singleton.mp ht]
      exact ⟨rfl, parsed_filter now v fetched⟩
  order := by
    refine List.pairwise_append.mpr ⟨List.pairwise_map.mpr ?_, List.pairwise_singleton _ _, ?_⟩
    · exact List.pairwise_of_forall fun _ _ h => absurd h (by simp [isBatch])
    · intro t _ u hu _
      rw [List.mem_singleton.mp hu]
      rfl
  members := by
    have hmap : ∀ l : List Text,
        (l.map fun m => RelayTask.quarantine v m .malformed).flatMap membersOf = l := by
      intro l
      induction l with
      | nil => rfl
      | cons m l ih => exact congrArg (m :: ·) ih
    show ([] ++ (fetchTasks now v fetched).flatMap membersOf).Perm fetched
    rw [List.nil_append, fetchTasks, List.flatMap_append, hmap]
    have hnone : (fun m => (parseMember v m).isNone) = fun m => !(parseMember v m).isSome :=
      funext fun m => by simp
    rw [hnone]
    simpa [membersOf] using List.perm_append_comm.trans
      (List.filter_append_perm (fun m => (parseMember v m).isSome) fetched)
  handoff := handoff_takes_nil v stores.1
  result := by
    show SameStores (finish rejects (fetchTasks now v fetched) stores) _
    rw [finish_fetchTasks hnodup]
    exact .refl _

/-- The tasks after a step, and what running the first one did. -/
theorem step_some {lost : ℕ} (hstep : step rejects s lost = some t) :
    ∃ task rest more, s.tasks = task :: rest ∧ t.tasks = more ++ rest ∧
      t.left = s.left ++ takes task ∧
      runTask rejects task s.redis (loseIds lost s.db) = some (more, t.redis, t.db) := by
  unfold step at hstep
  split at hstep
  · exact absurd hstep (by simp)
  · rename_i task rest htasks
    obtain ⟨⟨more, redis, db⟩, hrun, rfl⟩ := Option.map_eq_some_iff.mp hstep
    exact ⟨task, rest, more, htasks, rfl, rfl, hrun⟩

theorem inv_step {lost : ℕ} (h : Inv rejects now v fetched stores s)
    (hstep : step rejects s lost = some t) : Inv rejects now v fetched stores t := by
  obtain ⟨task, rest, more, htasks, htasks', hleft, hrun⟩ := step_some hstep
  have hok := h.ok
  have horder := h.order
  have hmembers := h.members
  have hresult := h.result
  rw [htasks] at hok horder hmembers hresult
  obtain ⟨hhead, hrest⟩ := List.pairwise_cons.mp horder
  have ht := hok task List.mem_cons_self
  have hrestok : ∀ u ∈ rest, TaskOk now v u := fun u hu => hok u (List.mem_cons_of_mem _ hu)
  have hruns := runs_runTask ht hrun
  refine ⟨?_, ?_, ?_, ?_, ?_⟩
  · rw [htasks']
    intro u hu
    rcases List.mem_append.mp hu with hu | hu
    · exact hruns.ok u hu
    · exact hrestok u hu
  · rw [htasks']
    refine List.pairwise_append.mpr ⟨hruns.order, hrest, fun u hu w hw _ => ?_⟩
    -- a task that leaves something is a batch, and so is everything after it
    cases hbatch : isBatch task with
    | true => exact hhead w hw hbatch
    | false =>
      rw [hruns.script hbatch] at hu
      exact absurd hu List.not_mem_nil
  · rw [htasks', hleft]
    refine List.Perm.trans ?_ hmembers
    rw [List.flatMap_append, List.flatMap_cons, List.append_assoc, ← List.append_assoc (takes task)]
    exact (hruns.members.append_right _).append_left _
  · rw [hruns.handoff, h.handoff, hleft, Function.update_self, Function.update_idem,
      ZSet.zrem_zrem]
  · rw [htasks']
    have hfirst := finish_runTask ht hrun
    have hsplit : finish rejects (more ++ rest) (t.redis, t.db) =
        finish rejects rest (finish rejects more (t.redis, t.db)) := List.foldl_append
    rw [hsplit]
    exact (finish_same hrestok hfirst).trans hresult

theorem weight_step {lost : ℕ} (h : Inv rejects now v fetched stores s)
    (hstep : step rejects s lost = some t) :
    (t.tasks.map weight).sum + 1 ≤ (s.tasks.map weight).sum := by
  obtain ⟨task, rest, more, htasks, htasks', -, hrun⟩ := step_some hstep
  have hweight := (runs_runTask (h.ok task (by simp [htasks])) hrun).weight
  rw [htasks, htasks', List.map_append, List.sum_append, List.map_cons, List.sum_cons]
  omega

theorem weight_run {lost : List ℕ} (h : Inv rejects now v fetched stores s)
    (hrun : run (step rejects) s lost = some t) :
    lost.length + (t.tasks.map weight).sum ≤ (s.tasks.map weight).sum := by
  induction lost generalizing s with
  | nil =>
    cases hrun
    simp
  | cons n lost ih =>
    obtain ⟨u, hu, hrun⟩ := run_cons.mp hrun
    have hle := ih (inv_step h hu) hrun
    have hlt := weight_step h hu
    rw [List.length_cons]
    omega

/-- The members that are still in the handoff set are those of the tasks. -/
theorem Inv.remaining (h : Inv rejects now v fetched stores s) (hnodup : fetched.Nodup)
    (hfetched : ∀ m ∈ fetched, m ∈ (stores.1.handoff v).members) {m : Text} (hm : m ∈ fetched) :
    m ∈ (s.redis.handoff v).members ↔ m ∈ s.tasks.flatMap membersOf := by
  have hall := h.members.nodup_iff.mpr hnodup
  rw [h.handoff, Function.update_self, ZSet.mem_zrem]
  constructor
  · rintro ⟨-, hleft⟩
    exact (List.mem_append.mp (h.members.mem_iff.mpr hm)).resolve_left hleft
  · intro htask
    exact ⟨hfetched m hm, fun hleft => (List.nodup_append.mp hall).2.2 m hleft m htask rfl⟩

/-- What a round for the fetched members does, in any state it reaches. -/
structure RoundLaws (rejects : Reservation → Bool) (now : Time) (v : VoucherId)
    (fetched : List Text) (stores : Redis × Db) (lost : List ℕ) (t : Round) : Prop where
  /-- the stores are those the members one by one lead to -/
  result : t.tasks = [] →
    SameStores (t.redis, t.db) (oneByOne rejects now v fetched stores)
  /-- no step is stuck, and there is a bound on their number: the bisection terminates -/
  progress : t.tasks ≠ [] → ∀ n, ∃ u, step rejects t n = some u
  bounded : lost.length + (t.tasks.map weight).sum ≤ ((fetchTasks now v fetched).map weight).sum
  /-- every member leaves the handoff set once, by one script -/
  once : t.tasks = [] → t.left.Perm fetched ∧ ∀ m ∈ fetched, m ∉ (t.redis.handoff v).members
  /-- a member is completed with its own order id -/
  paired : ∀ w events ms, .complete w events ms ∈ t.tasks →
    ∀ p ∈ completeArguments events ms, (parseMember v p.1).map Reservation.orderId = some p.2
  /-- where a batch is about to be committed, what is in the handoff set are the members of the
  batches that are not -/
  remaining : ∀ w events ms rest, t.tasks = .persist w events ms :: rest →
    (∀ task ∈ t.tasks, isBatch task = true) ∧ ∀ m ∈ fetched,
      m ∈ (t.redis.handoff v).members ↔ ∃ task ∈ t.tasks, m ∈ membersOf task

theorem paired_of_parsed {ms : List Text} {events : List SeckillOrderOutboxEvent}
    (hp : Parsed now v ms events) {p : Text × OrderId} (h : p ∈ completeArguments events ms) :
    (parseMember v p.1).map Reservation.orderId = some p.2 := by
  unfold completeArguments at h
  induction hp with
  | nil => exact absurd h (by simp)
  | cons hm _ ih =>
    rcases List.mem_cons.mp h with rfl | h
    · obtain ⟨r, hr, rfl⟩ := Option.map_eq_some_iff.mp hm
      rw [hr]
      rfl
    · exact ih h

theorem roundLaws (hnodup : fetched.Nodup)
    (hfetched : ∀ m ∈ fetched, m ∈ (stores.1.handoff v).members)
    {lost : List ℕ} (hrun : run (step rejects) (begin now v fetched stores) lost = some t) :
    RoundLaws rejects now v fetched stores lost t := by
  have ht : Inv rejects now v fetched stores t :=
    run_invariant' (fun _ _ _ h hstep => inv_step h hstep) (inv_begin hnodup) hrun
  refine ⟨fun hdone => ?_, fun htasks n => ?_, weight_run (inv_begin hnodup) hrun, fun hdone => ?_,
    fun w events ms hmem p hp => ?_, fun w events ms rest htasks => ⟨?_, fun m hm => ?_⟩⟩
  · have hresult := ht.result
    rw [hdone] at hresult
    exact hresult
  · obtain ⟨task, rest, heq⟩ := List.exists_cons_of_ne_nil htasks
    obtain ⟨r, hr⟩ := exists_runTask rejects (ht.ok task (by simp [heq])) t.redis
      (loseIds n t.db)
    refine ⟨⟨r.1 ++ rest, r.2.1, r.2.2, t.left ++ takes task⟩, ?_⟩
    simp only [step, heq, hr, Option.map_some]
  · have hmembers := ht.members
    rw [hdone, List.flatMap_nil, List.append_nil] at hmembers
    refine ⟨hmembers, fun m hm hin => ?_⟩
    have := (ht.remaining hnodup hfetched hm).mp hin
    rw [hdone] at this
    exact absurd this List.not_mem_nil
  · exact paired_of_parsed (ht.ok _ hmem).2 hp
  · have horder := ht.order
    rw [htasks] at horder ⊢
    intro task hmem
    rcases List.mem_cons.mp hmem with rfl | hmem
    · rfl
    · exact (List.pairwise_cons.mp horder).1 task hmem rfl
  · rw [ht.remaining hnodup hfetched hm, List.mem_flatMap]

/-! ## A round over the vouchers -/

/-- `relayOneRound`, with no other exception: for each voucher the first members of its handoff set
are fetched and the round for them is run to its end. -/
inductive RelayOneRound (rejects : Reservation → Bool) (now : Time) (limit : ℕ) :
    List VoucherId → Redis × Db → Redis × Db → Prop
  | nil (stores : Redis × Db) : RelayOneRound rejects now limit [] stores stores
  | cons {v : VoucherId} {vs : List VoucherId} {stores stores' : Redis × Db} {t : Round}
      (lost : List ℕ)
      (hrun : run (step rejects) (begin now v ((stores.1.handoff v).range limit) stores) lost =
        some t)
      (hdone : t.tasks = []) (hrest : RelayOneRound rejects now limit vs (t.redis, t.db) stores') :
      RelayOneRound rejects now limit (v :: vs) stores stores'

/-- The same, the members one by one. -/
def relayEach (rejects : Reservation → Bool) (now : Time) (limit : ℕ) (vs : List VoucherId)
    (stores : Redis × Db) : Redis × Db :=
  vs.foldl (fun s v => oneByOne rejects now v ((s.1.handoff v).range limit) s) stores

theorem handleOne_same {a b : Redis × Db} (h : SameStores a b) (m : Text) :
    SameStores (handleOne rejects now v a m) (handleOne rejects now v b m) := by
  unfold handleOne
  cases hparse : parse now v m with
  | none => exact ⟨by simp only [h.redis], h.db⟩
  | some e => exact handleEvent_same (fresh_of_parse hparse) h

theorem oneByOne_same {a b : Redis × Db} (h : SameStores a b) (ms : List Text) :
    SameStores (oneByOne rejects now v ms a) (oneByOne rejects now v ms b) := by
  unfold oneByOne
  induction ms generalizing a b with
  | nil => exact h
  | cons m ms ih => exact ih (handleOne_same h m)

theorem relayEach_same {limit : ℕ} {vs : List VoucherId} {a b : Redis × Db} (h : SameStores a b) :
    SameStores (relayEach rejects now limit vs a) (relayEach rejects now limit vs b) := by
  unfold relayEach
  induction vs generalizing a b with
  | nil => exact h
  | cons v vs ih =>
    refine ih ?_
    show SameStores (oneByOne rejects now v ((a.1.handoff v).range limit) a)
      (oneByOne rejects now v ((b.1.handoff v).range limit) b)
    rw [h.redis]
    exact oneByOne_same h _

theorem relayOneRound_same {limit : ℕ} {vs : List VoucherId} {stores' : Redis × Db}
    (h : RelayOneRound rejects now limit vs stores stores') :
    SameStores stores' (relayEach rejects now limit vs stores) := by
  induction h with
  | nil stores => exact .refl stores
  | @cons v vs stores stores' t lost hrun hdone _ ih =>
    have hnodup : ((stores.1.handoff v).range limit).Nodup :=
      (List.take_sublist _ _).nodup (ZSet.members_nodup _)
    have hlaws := roundLaws hnodup (fun m hm => ZSet.mem_of_mem_range hm) hrun
    exact ih.trans (relayEach_same (hlaws.result hdone))

/-- **The batched relay refines handling the members one by one.** A round over any vouchers ends
in the stores that the members of each voucher one by one lead to; and for any distinct members of
a handoff set the round terminates, takes each of them out once, completes it with its own order
id, and wherever it is cut short leaves those of the batches not yet committed. -/
theorem relay_refines_one_by_one (rejects : Reservation → Bool) (now : Time) :
    (∀ limit vs stores stores', RelayOneRound rejects now limit vs stores stores' →
      SameStores stores' (relayEach rejects now limit vs stores)) ∧
      ∀ v fetched stores lost t, fetched.Nodup → (∀ m ∈ fetched, m ∈ (stores.1.handoff v).members) →
        run (step rejects) (begin now v fetched stores) lost = some t →
        RoundLaws rejects now v fetched stores lost t :=
  ⟨fun _ _ _ _ h => relayOneRound_same h,
    fun _ _ _ _ _ hnodup hfetched hrun => roundLaws hnodup hfetched hrun⟩

/-- Two orders and a malformed member between them. -/
def threeMembers : Redis :=
  { Redis.empty with
    handoff := fun _ =>
      ((ZSet.empty.zadd 1 (buildMember 1 5 false)).zadd 2 ['x']).zadd 3 (buildMember 2 6 false) }

/-- The second order is rejected: the batch is split, one half is committed and the other
quarantined. -/
theorem relay_refines_one_by_one_split :
    ∃ t, run (step fun r => r.orderId = 2) (begin 0 7 ((threeMembers.handoff 7).range 10)
        (threeMembers, Db.empty)) [0, 1, 2, 0, 0, 1] = some t ∧
      RoundLaws (fun r => r.orderId = 2) 0 7 ((threeMembers.handoff 7).range 10)
        (threeMembers, Db.empty) [0, 1, 2, 0, 0, 1] t := by
  obtain ⟨t, ht⟩ := Option.isSome_iff_exists.mp
    (show (run (step fun r => r.orderId = 2) (begin 0 7 ((threeMembers.handoff 7).range 10)
      (threeMembers, Db.empty)) [0, 1, 2, 0, 0, 1]).isSome = true by decide +kernel)
  exact ⟨t, ht, (relay_refines_one_by_one (fun r => r.orderId = 2) 0).2 7 _ _ _ t
    ((List.take_sublist _ _).nodup (ZSet.members_nodup _)) (fun m hm => ZSet.mem_of_mem_range hm)
    ht⟩

end Hmdp.Handoff
