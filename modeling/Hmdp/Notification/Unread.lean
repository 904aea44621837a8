import Hmdp.Notification.Inbox

/-!
# Unread ids and the field `read`

While no key expires, an id of the inbox is unread or its notification is read, up to what the
marks in flight are still going to do (`Accounted`): a mark sets the field before it takes the id
out of `unread`. `markAllRead` deletes all of `unread`, and not only what it has read before: an id
published since its `SMEMBERS` is taken out unmarked.

* **`accounted_iff`**: the exact condition: whatever a `DEL` or an `SREM` takes out has been
  marked, or another mark in flight is going to mark it.
* **`unread_consistent`**: then, with no mark in flight, the unread ids are those of the inbox whose
  field `read` is 0.
-/

namespace Hmdp.Notification

open Hmdp.Lib Hmdp.Model Hmdp.Notification.Script

variable {Thread : Type} [DecidableEq Thread]

/-! ## What is in flight -/

/-- The mark is going to set the field of the id. -/
def willPut (id : Text) : Option MarkPhase → Bool
  | some (.put id') => decide (id' = id)
  | some (.pipeline id' ids) => decide (id' = id ∨ id ∈ ids)
  | _ => false

/-- The mark is going to take the id out of `unread`, and sets its field before if it has not. -/
def willRemove (id : Text) : Option MarkPhase → Bool
  | some (.put id') => decide (id' = id)
  | some (.remove id') => decide (id' = id)
  | some (.pipeline _ _) => true
  | some .delete => true
  | _ => false

/-- The next statement of the mark takes the id out of `unread`. -/
def takes (id : Text) : Option MarkPhase → Bool
  | some (.remove id') => decide (id' = id)
  | some .delete => true
  | _ => false

/-- The fields of the inbox are set, and no id is unread that is not in it. -/
structure Fields (keys : NotificationKeys) : Prop where
  unread : ∀ id ∈ keys.unread, id ∈ keys.inbox.members
  read : ∀ id ∈ keys.inbox.members, keys.read id = some ['0'] ∨ keys.read id = some ['1']

/-- An id of the inbox is unread or read, once the marks in flight are over. -/
structure Accounted (s : State Thread) : Prop where
  unread : ∀ id ∈ s.keys.unread, s.keys.read id = some ['0'] ∨
    ∃ th, willRemove id (s.marks th) = true
  marked : ∀ id ∈ s.keys.inbox.members, id ∉ s.keys.unread → s.keys.read id = some ['1'] ∨
    ∃ th, willPut id (s.marks th) = true

/-- No key of the inbox, of `unread` or of a notification expires in the step. -/
def NoExpiry (s : State Thread) : Action Thread → Prop
  | .elapse millis =>
    let keys := s.keys.elapse (s.keys.now + millis)
    keys.inbox = s.keys.inbox ∧ keys.unread = s.keys.unread ∧ ∀ id, keys.read id = s.keys.read id
  | _ => True

/-- **The condition on a step**: what it takes out of `unread` is marked, or another mark in flight
is going to mark it. -/
def TakesMarked (s : State Thread) : Action Thread → Prop
  | .next th _ => ∀ id ∈ s.keys.unread, takes id (s.marks th) = true →
      s.keys.read id = some ['1'] ∨ ∃ other, willPut id (s.marks other) = true
  | _ => True

/-! ## The field -/

section

variable {keys : NotificationKeys} {id id' : Text}

theorem read_putRead (keys : NotificationKeys) (id id' : Text) :
    (keys.putRead id).read id' = if id' = id then some ['1'] else keys.read id' := by
  by_cases h : id' = id
  · subst h
    simp [NotificationKeys.putRead, NotificationKeys.read]
  · simp [NotificationKeys.putRead, NotificationKeys.read, h]

theorem read_trim (maxItems : ℤ) (keys : NotificationKeys) (id : Text) :
    (keys.trim maxItems).read id = keys.read id := by
  rw [trim_eq]
  rfl

theorem read_add (keys : NotificationKeys) (p : Publish) (id : Text) :
    (keys.add p).read id = if id = p.id then some ['0'] else keys.read id := by
  by_cases h : id = p.id
  · subst h
    simp [NotificationKeys.add, NotificationKeys.read, Publish.detail]
  · simp [NotificationKeys.add, NotificationKeys.read, h]

/-- What the trimming leaves was there. -/
theorem mem_of_mem_trim {maxItems : ℤ} (hmax : 0 ≤ maxItems)
    (h : id ∈ (keys.trim maxItems).inbox.members) : id ∈ keys.inbox.members := by
  obtain ⟨e, he, rfl⟩ := List.mem_map.mp h
  exact List.mem_map_of_mem ((newest_trim hmax keys).subset e he)

/-- **The fields after an accepted publish.** -/
theorem fields_publish (h : Fields keys) (p : Publish) {maxItems : ℤ} (hmax : 0 ≤ maxItems) :
    Fields ((keys.add p).trim maxItems) := by
  have hadded := mem_add_unread h.unread p
  refine ⟨fun id hid => ((mem_trim_unread hadded).mp hid).2, fun id hid => ?_⟩
  rw [read_trim, read_add]
  split
  · exact .inl rfl
  · rename_i hne
    exact h.read id ((ZSet.mem_zadd.mp (mem_of_mem_trim hmax hid)).resolve_left hne)

theorem fields_mark {unreadIds : List Text} {phase phase' : MarkPhase} {keys' : NotificationKeys}
    (h : Fields keys) (hmark : keys.mark unreadIds phase = some (keys', phase')) :
    Fields keys' := by
  obtain ⟨hunread, hinbox, -⟩ := mark_frame hmark
  have hput : ∀ x, ∀ id ∈ keys.inbox.members,
      (keys.putRead x).read id = some ['0'] ∨ (keys.putRead x).read id = some ['1'] := by
    intro x id hid
    rw [read_putRead]
    split
    · exact .inr rfl
    · exact h.read id hid
  refine ⟨fun id hid => hinbox ▸ h.unread id (hunread hid), ?_⟩
  rw [hinbox]
  cases phase with
  | put x =>
    cases hmark
    exact hput x
  | pipeline x ids =>
    cases hmark
    exact hput x
  | members =>
    simp only [NotificationKeys.mark] at hmark
    split at hmark <;> cases hmark
    exact h.read
  | returning => cases hmark
  | _ =>
    cases hmark
    exact h.read

end

/-! ## The steps -/

section

variable {maxItems : ℤ} {s t : State Thread} {th : Thread}

theorem fields_step {a : Action Thread} (hexpiry : NoExpiry s a) (hs : Fields s.keys)
    (hstep : step maxItems s a = some t) : Fields t.keys := by
  cases a with
  | publish p =>
    rcases publish_cases maxItems p s.keys with ⟨-, h⟩ | ⟨-, h⟩
    · simp only [step, h] at hstep
      cases hstep
      exact hs
    · simp only [step, h] at hstep
      cases hstep
      exact fields_publish hs p (by omega)
  | markRead th notificationId =>
    simp only [step] at hstep
    split at hstep <;> cases hstep
    exact hs
  | markAllRead th =>
    simp only [step] at hstep
    split at hstep <;> cases hstep
    exact hs
  | next th unreadIds =>
    obtain ⟨phase, -, hstep⟩ := Option.bind_eq_some_iff.mp hstep
    split at hstep
    · cases hstep
      exact hs
    · obtain ⟨⟨keys', phase'⟩, hmark, hstep⟩ := Option.map_eq_some_iff.mp hstep
      cases hstep
      exact fields_mark hs hmark
  | elapse millis =>
    cases hstep
    obtain ⟨hinbox, hunread, hread⟩ := hexpiry
    refine ⟨fun id hid => ?_, fun id hid => ?_⟩
    · exact hinbox ▸ hs.unread id (hunread ▸ hid)
    · rw [hread]
      exact hs.read id (hinbox ▸ hid)

/-- A mark in flight stays one when another moves on. -/
theorem exists_update {f : Option MarkPhase → Bool} {mark : Option MarkPhase}
    (h : ∃ other, f (s.marks other) = true) (hkeep : f (s.marks th) = true → f mark = true) :
    ∃ other, f (Function.update s.marks th mark other) = true := by
  obtain ⟨other, hother⟩ := h
  by_cases hsame : other = th
  · subst hsame
    refine ⟨other, ?_⟩
    rw [Function.update_self]
    exact hkeep hother
  · refine ⟨other, ?_⟩
    rw [Function.update_of_ne hsame]
    exact hother

/-- A step that leaves the keys, and after which the mark has as much to do. -/
theorem accounted_move {mark : Option MarkPhase} (hs : Accounted s)
    (hput : ∀ id, willPut id (s.marks th) = true → willPut id mark = true)
    (hremove : ∀ id, willRemove id (s.marks th) = true → willRemove id mark = true) :
    Accounted (s.withMark th mark) where
  unread id hid := (hs.unread id hid).imp_right fun h => exists_update h (hremove id)
  marked id hid hnot := (hs.marked id hid hnot).imp_right fun h => exists_update h (hput id)

/-- **The `HSET`** of a mark that is going to take the id out of `unread`. -/
theorem accounted_put {mark : Option MarkPhase} {x : Text} (hs : Accounted s)
    (hput : ∀ id, id ≠ x → willPut id (s.marks th) = true → willPut id mark = true)
    (hremove : ∀ id, willRemove id (s.marks th) = true → willRemove id mark = true)
    (hx : willRemove x mark = true) :
    Accounted ({ s with keys := s.keys.putRead x }.withMark th mark) where
  unread id hid := by
    show (s.keys.putRead x).read id = _ ∨ _
    rw [read_putRead]
    by_cases hid' : id = x
    · subst hid'
      exact .inr ⟨th, by simpa [State.withMark] using hx⟩
    · rw [if_neg hid']
      exact (hs.unread id hid).imp_right fun h => exists_update h (hremove id)
  marked id hid hnot := by
    show (s.keys.putRead x).read id = _ ∨ _
    rw [read_putRead]
    by_cases hid' : id = x
    · rw [if_pos hid']
      exact .inl rfl
    · rw [if_neg hid']
      exact (hs.marked id hid hnot).imp_right fun h => exists_update h (hput id hid')

/-- **The `SREM` or the `DEL`** keeps the ids accounted for exactly if what it takes out has been
marked or is going to be. -/
theorem accounted_take {keys' : NotificationKeys} (hf : Fields s.keys) (hs : Accounted s)
    (hinbox : keys'.inbox = s.keys.inbox) (hread : ∀ id, keys'.read id = s.keys.read id)
    (hunread : ∀ id, id ∈ keys'.unread ↔ id ∈ s.keys.unread ∧ takes id (s.marks th) = false)
    (hput : ∀ id, willPut id (s.marks th) = false)
    (hremove : ∀ id, willRemove id (s.marks th) = takes id (s.marks th)) :
    Accounted ({ s with keys := keys' }.withMark th (some .returning)) ↔
      ∀ id ∈ s.keys.unread, takes id (s.marks th) = true →
        s.keys.read id = some ['1'] ∨ ∃ other, willPut id (s.marks other) = true := by
  constructor
  · intro ht id hid htaken
    have hout : id ∉ keys'.unread := fun h => by
      rw [((hunread id).mp h).2] at htaken
      cases htaken
    refine (ht.marked id (hinbox ▸ hf.unread id hid) hout).imp (fun h => (hread id).symm.trans h) ?_
    rintro ⟨other, hother⟩
    simp only [State.withMark] at hother
    by_cases hsame : other = th
    · rw [hsame, Function.update_self] at hother
      cases hother
    · rw [Function.update_of_ne hsame] at hother
      exact ⟨other, hother⟩
  · intro h
    refine ⟨fun id hid => ?_, fun id hid hout => ?_⟩
    · obtain ⟨hbefore, hnot⟩ := (hunread id).mp hid
      refine (hs.unread id hbefore).imp (fun h => (hread id).trans h) fun hex =>
        exists_update hex fun hr => ?_
      rw [hremove, hnot] at hr
      cases hr
    · have hmarked : s.keys.read id = some ['1'] ∨ ∃ other, willPut id (s.marks other) = true := by
        by_cases hbefore : id ∈ s.keys.unread
        · refine h id hbefore ?_
          by_contra hnot
          exact hout ((hunread id).mpr ⟨hbefore, by simpa using hnot⟩)
        · exact hs.marked id (hinbox ▸ hid) hbefore
      refine hmarked.imp (fun h => (hread id).trans h) fun hex => exists_update hex fun hp => ?_
      rw [hput] at hp
      cases hp

omit [DecidableEq Thread] in
/-- **An accepted publish.** -/
theorem accounted_publish (hf : Fields s.keys) (hs : Accounted s) (p : Publish)
    (accepted : List Accepted) :
    Accounted { s with keys := (s.keys.add p).trim (max 1 maxItems), accepted := accepted } := by
  have hadded := mem_add_unread hf.unread p
  refine ⟨fun id hid => ?_, fun id hid hout => ?_⟩
  · show ((s.keys.add p).trim _).read id = _ ∨ _
    rw [read_trim, read_add]
    split
    · exact .inl rfl
    · rename_i hne
      have hunread := ((mem_trim_unread hadded).mp hid).1
      exact hs.unread id ((Finset.mem_insert.mp hunread).resolve_left hne)
  · show ((s.keys.add p).trim _).read id = _ ∨ _
    have hnot : id ∉ (s.keys.add p).unread := fun h => hout ((mem_trim_unread hadded).mpr ⟨h, hid⟩)
    obtain ⟨hne, hnot⟩ := not_or.mp fun h => hnot (Finset.mem_insert.mpr h)
    rw [read_trim, read_add, if_neg hne]
    have hmem := ZSet.mem_zadd.mp (mem_of_mem_trim (by omega) hid)
    exact hs.marked id (hmem.resolve_left hne) hnot

theorem willPut_ofIds (id : Text) (ids : List Text) :
    willPut id (some (.ofIds ids)) = decide (id ∈ ids) := by
  cases ids with
  | nil => rfl
  | cons y ids =>
    refine decide_eq_decide.mpr ?_
    rw [List.mem_cons, eq_comm]

theorem willRemove_ofIds (id : Text) (ids : List Text) :
    willRemove id (some (.ofIds ids)) = true := by
  cases ids <;> rfl

/-- A call begins. -/
theorem accounted_start {mark : MarkPhase} (hs : Accounted s) (hfree : s.marks th = none) :
    Accounted (s.withMark th (some mark)) :=
  accounted_move hs (fun id h => by rw [hfree] at h; cases h)
    fun id h => by rw [hfree] at h; cases h

/-- **A statement of a mark in flight**: one case per phase. -/
theorem accounted_next {unreadIds : List Text} (hf : Fields s.keys) (hs : Accounted s)
    (hstep : step maxItems s (.next th unreadIds) = some t) :
    Accounted t ↔ TakesMarked s (.next th unreadIds) := by
  obtain ⟨phase, hphase, hstep⟩ := Option.bind_eq_some_iff.mp hstep
  cases phase with
  | returning =>
    cases hstep
    refine iff_of_true (accounted_move hs (fun id h => ?_) fun id h => ?_) fun id _ h => ?_
    all_goals
      rw [hphase] at h
      cases h
  | put x =>
    cases hstep
    refine iff_of_true (accounted_put hs (fun id hne h => ?_) (fun id h => ?_) ?_)
      fun id _ h => ?_
    · rw [hphase] at h
      exact absurd (of_decide_eq_true h).symm hne
    · rw [hphase] at h
      exact h
    · exact decide_eq_true rfl
    · rw [hphase] at h
      cases h
  | pipeline x ids =>
    cases hstep
    refine iff_of_true (accounted_put hs (fun id hne h => ?_)
      (fun id _ => willRemove_ofIds id ids) (willRemove_ofIds x ids)) fun id _ h => ?_
    · rw [hphase] at h
      rw [willPut_ofIds]
      exact decide_eq_true ((of_decide_eq_true h).resolve_left fun he => hne he.symm)
    · rw [hphase] at h
      cases h
  | members =>
    obtain ⟨⟨keys', phase'⟩, hmark, hstep⟩ := Option.map_eq_some_iff.mp hstep
    cases hstep
    simp only [NotificationKeys.mark] at hmark
    split at hmark <;> cases hmark
    refine iff_of_true (accounted_move hs (fun id h => ?_) fun id h => ?_) fun id _ h => ?_
    all_goals
      rw [hphase] at h
      cases h
  | remove x =>
    cases hstep
    refine accounted_take hf hs rfl (fun _ => rfl) (fun id => ?_) (fun id => ?_) fun id => ?_
    · simp [NotificationKeys.removeUnread, hphase, takes, and_comm, eq_comm]
    · rw [hphase]
      rfl
    · rw [hphase]
      rfl
  | delete =>
    cases hstep
    refine accounted_take hf hs rfl (fun _ => rfl) (fun id => ?_) (fun id => ?_) fun id => ?_
    · simp [NotificationKeys.deleteUnread, hphase, takes]
    · rw [hphase]
      rfl
    · rw [hphase]
      rfl

/-- **The step lemma**: a step keeps the ids accounted for exactly if it meets the condition. -/
theorem accounted_step {a : Action Thread} (hexpiry : NoExpiry s a) (hf : Fields s.keys)
    (hs : Accounted s) (hstep : step maxItems s a = some t) : Accounted t ↔ TakesMarked s a := by
  cases a with
  | publish p =>
    refine iff_of_true ?_ trivial
    rcases publish_cases maxItems p s.keys with ⟨-, h⟩ | ⟨-, h⟩
    · simp only [step, h] at hstep
      cases hstep
      exact ⟨hs.unread, hs.marked⟩
    · simp only [step, h] at hstep
      cases hstep
      exact accounted_publish hf hs p _
  | markRead th notificationId =>
    refine iff_of_true ?_ trivial
    simp only [step] at hstep
    split at hstep
    · rename_i hfree
      cases hstep
      exact accounted_start hs (Option.isNone_iff_eq_none.mp hfree)
    · cases hstep
  | markAllRead th =>
    refine iff_of_true ?_ trivial
    simp only [step] at hstep
    split at hstep
    · rename_i hfree
      cases hstep
      exact accounted_start hs (Option.isNone_iff_eq_none.mp hfree)
    · cases hstep
  | next th unreadIds =>
    exact accounted_next hf hs hstep
  | elapse millis =>
    refine iff_of_true ?_ trivial
    cases hstep
    obtain ⟨hinbox, hunread, hread⟩ := hexpiry
    refine ⟨fun id hid => ?_, fun id hid hnot => ?_⟩
    · exact (hs.unread id (hunread ▸ hid)).imp_left fun h => (hread id).trans h
    · exact (hs.marked id (hinbox ▸ hid) fun h => hnot (hunread ▸ h)).imp_left
        fun h => (hread id).trans h

omit [DecidableEq Thread] in
theorem accounted_init (now : ℤ) : Accounted (State.init now : State Thread) := ⟨nofun, nofun⟩

/-- **The exact condition.** While no key expires, every id of the inbox is accounted for in every
state of a run exactly if its steps all meet the condition. -/
theorem accounted_iff {now : ℤ} {actions : List (Action Thread)}
    (hrun : run (step maxItems) (.init now) actions = some s)
    (hexpiry : Along (step maxItems) NoExpiry (.init now) actions) :
    Along (step maxItems) TakesMarked (.init now) actions ↔
      ∀ before t, before <+: actions → run (step maxItems) (.init now) before = some t →
        Accounted t :=
  along_iff_invariant_within (J := fun s => Fields s.keys)
    (fun _ _ _ h hf hstep => fields_step h.1 hf hstep)
    (fun _ _ _ hexpiry hf hs hstep => accounted_step hexpiry hf hs hstep) hexpiry ⟨nofun, nofun⟩
    (accounted_init now) hrun

/-- **Unread ids.** In every run in which no key expires and whose steps meet the condition, with
no mark in flight: the unread ids are the ids of the inbox whose field `read` is 0, so a
notification of the inbox is marked read or counted. -/
theorem unread_consistent {now : ℤ} {actions : List (Action Thread)}
    (hrun : run (step maxItems) (.init now) actions = some s)
    (hexpiry : Along (step maxItems) NoExpiry (.init now) actions)
    (hmarked : Along (step maxItems) TakesMarked (.init now) actions)
    (hidle : ∀ th, s.marks th = none) :
    (∀ id, id ∈ s.keys.unread ↔ id ∈ s.keys.inbox.members ∧ s.keys.read id = some ['0']) ∧
      s.keys.countUnread =
        (s.keys.inbox.members.filter fun id => decide (s.keys.read id ≠ some ['1'])).length := by
  have hs := (accounted_iff hrun hexpiry).mp hmarked actions s List.prefix_rfl hrun
  have hf : Fields s.keys := run_invariant (fun _ _ _ h hf hstep => fields_step h hf hstep) hexpiry
    ⟨nofun, nofun⟩ hrun
  have hnobody : ∀ f : Option MarkPhase → Bool, f none = false →
      ¬ ∃ th, f (s.marks th) = true := by
    rintro f hf ⟨th, hth⟩
    rw [hidle th, hf] at hth
    cases hth
  have hiff : ∀ id, id ∈ s.keys.unread ↔
      id ∈ s.keys.inbox.members ∧ s.keys.read id = some ['0'] := by
    intro id
    constructor
    · exact fun hid => ⟨hf.unread id hid, (hs.unread id hid).resolve_right (hnobody _ rfl)⟩
    · rintro ⟨hid, hread⟩
      by_contra hnot
      have hmarked := (hs.marked id hid hnot).resolve_right (hnobody _ rfl)
      cases hread.symm.trans hmarked
  refine ⟨hiff, ?_⟩
  have hset : s.keys.unread =
      (s.keys.inbox.members.filter fun id => decide (s.keys.read id ≠ some ['1'])).toFinset := by
    ext id
    rw [hiff, List.mem_toFinset, List.mem_filter, decide_eq_true_eq]
    refine and_congr_right fun hid => ⟨fun h => by simp [h], fun h => ?_⟩
    exact (hf.read id hid).resolve_right h
  rw [NotificationKeys.countUnread, hset,
    List.toFinset_card_of_nodup (s.keys.inbox.members_nodup.filter _)]

end

/-! ## Runs -/

instance (s : State Bool) (a : Action Bool) : Decidable (TakesMarked s a) := by
  cases a <;> unfold TakesMarked <;> infer_instance

/-- Two reminders, one marked beside a publish, and then all. -/
def publishAndMark : List (Action Bool) :=
  [.publish (reminder 1 none 50), .markRead true 1, .next true [], .publish (reminder 2 none 60),
    .next true [], .next true [], .markAllRead false, .next false [['2']], .next false [],
    .next false [], .next false [], .publish (reminder 3 none 70)]

theorem unread_consistent_publishAndMark :
    ∃ s : State Bool, run (step 100) (.init 0) publishAndMark = some s ∧
      s.keys.unread = {['3']} ∧
      (∀ id, id ∈ s.keys.unread ↔
        id ∈ s.keys.inbox.members ∧ s.keys.read id = some ['0']) ∧
      s.keys.countUnread =
        (s.keys.inbox.members.filter fun id => decide (s.keys.read id ≠ some ['1'])).length := by
  obtain ⟨s, hrun, hend⟩ := Option.map_eq_some_iff.mp
    (show (run (step 100) (State.init 0) publishAndMark).map (fun s =>
      decide ((∀ th, s.marks th = none) ∧ s.keys.unread = {['3']})) = some true by decide +kernel)
  obtain ⟨hidle, hunread⟩ := of_decide_eq_true hend
  have hexpiry : Along (step 100) NoExpiry (State.init 0 : State Bool) publishAndMark :=
    along_of_forall (by simp [publishAndMark, NoExpiry]) _
  exact ⟨s, hrun, hunread, unread_consistent hrun hexpiry (by decide +kernel) hidle⟩

/-- A notification is published between the `SMEMBERS` and the `DEL` of a `markAllRead`. -/
def publishedInBetween : List (Action Bool) :=
  [.publish (reminder 1 none 50), .markAllRead true, .next true [['1']],
    .publish (reminder 2 none 60), .next true [], .next true [], .next true []]

theorem published_in_between_is_lost :
    ¬ ∀ (maxItems now : ℤ) (actions : List (Action Bool)) (s : State Bool),
      run (step maxItems) (.init now) actions = some s →
        Along (step maxItems) NoExpiry (.init now) actions → (∀ th, s.marks th = none) →
          ∀ id, id ∈ s.keys.unread ↔
            id ∈ s.keys.inbox.members ∧ s.keys.read id = some ['0'] := by
  intro h
  obtain ⟨s, hrun, hend⟩ := Option.map_eq_some_iff.mp
    (show (run (step 100) (State.init 0) publishedInBetween).map (fun s =>
      decide ((∀ th, s.marks th = none) ∧ ['2'] ∉ s.keys.unread ∧ ['2'] ∈ s.keys.inbox.members ∧
        s.keys.read ['2'] = some ['0'])) = some true by decide +kernel)
  obtain ⟨hidle, hnot, hmem, hread⟩ := of_decide_eq_true hend
  have hexpiry : Along (step 100) NoExpiry (State.init 0 : State Bool) publishedInBetween :=
    along_of_forall (by simp [publishedInBetween, NoExpiry]) _
  exact hnot ((h 100 0 publishedInBetween s hrun hexpiry hidle ['2']).mpr ⟨hmem, hread⟩)

end Hmdp.Notification
