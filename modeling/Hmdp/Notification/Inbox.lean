import Hmdp.Notification.Step

/-!
# The inbox keeps the newest

`inbox` and `unread` are changed together by a publish and get the same time to live, a mark only
takes ids out of `unread`, so no id is unread that is not in the inbox (`Kept`). A dedup key lives
as long as it was set for, and nothing else touches it.

* `newest_trim`: what the trimming leaves.
* **`inbox_bounded`**: after every publish the inbox has the newest ids, no id is unread that is
  not in it, and between two accepted publishes of one key its time passes.
-/

namespace Hmdp.Notification

open Hmdp.Lib Hmdp.Model Hmdp.Notification.Script

variable {Thread : Type} [DecidableEq Thread]

/-- `after` has the `count` entries of `before` that are highest by time and then id. -/
structure Newest (count : ℤ) (before after : ZSet Text) : Prop where
  length_eq : (after.members.length : ℤ) = min count before.members.length
  subset : ∀ e ∈ after.entries, e ∈ before.entries
  highest : ∀ e ∈ after.entries, ∀ e' ∈ before.entries, e' ∉ after.entries → e' ≤ e

/-- The state of the keys in every run. -/
structure Kept (maxItems : ℤ) (s : State Thread) : Prop where
  size : (s.keys.inbox.members.length : ℤ) ≤ max 1 maxItems
  unread : ∀ id ∈ s.keys.unread, id ∈ s.keys.inbox.members
  expireAt : s.keys.unreadExpireAt = s.keys.inboxExpireAt
  /-- the key of an accepted publish is there until its time is up -/
  dedup : ∀ a ∈ s.accepted, a.time + a.dedupMillis ≤ s.keys.now ∨
    ∃ expireAt, s.keys.dedup a.dedupSuffix = some expireAt ∧ a.time + a.dedupMillis ≤ expireAt
  apart : s.accepted.Pairwise fun a b =>
    a.dedupSuffix = b.dedupSuffix → a.time + a.dedupMillis ≤ b.time

/-! ## The script -/

section

variable {keys : NotificationKeys} {maxItems : ℤ} {p : Publish}

theorem newest_trim (hmax : 0 ≤ maxItems) (keys : NotificationKeys) :
    Newest maxItems keys.inbox (keys.trim maxItems).inbox := by
  have hentries : (keys.trim maxItems).inbox.entries = keys.inbox.entries.drop
      ((keys.inbox.members.length : ℤ) - maxItems).toNat := by
    rw [trim_eq]
    exact ZSet.entries_zrem_range _ _
  refine ⟨?_, fun e he => ?_, fun e he e' he' hout => ?_⟩
  · rw [ZSet.members, List.length_map, hentries, List.length_drop, ZSet.members, List.length_map]
    omega
  · rw [hentries] at he
    exact List.mem_of_mem_drop he
  · rw [hentries] at he hout
    have hsorted := keys.inbox.sorted
    rw [← List.take_append_drop ((keys.inbox.members.length : ℤ) - maxItems).toNat
      keys.inbox.entries] at hsorted he'
    have hlow := (List.mem_append.mp he').resolve_right hout
    exact (List.pairwise_append.mp hsorted).2.2 e' hlow e he

/-- The overflow leaves both keys. -/
theorem mem_trim_unread (h : ∀ id ∈ keys.unread, id ∈ keys.inbox.members) {id : Text} :
    id ∈ (keys.trim maxItems).unread ↔
      id ∈ keys.unread ∧ id ∈ (keys.trim maxItems).inbox.members := by
  rw [trim_eq]
  simp only [Finset.mem_filter, ZSet.mem_zrem]
  constructor
  · exact fun hid => ⟨hid.1, h id hid.1, hid.2⟩
  · exact fun hid => ⟨hid.1, hid.2.2⟩

theorem mem_add_unread (h : ∀ id ∈ keys.unread, id ∈ keys.inbox.members) (p : Publish) :
    ∀ id ∈ (keys.add p).unread, id ∈ (keys.add p).inbox.members := by
  intro id hid
  refine ZSet.mem_zadd.mpr ?_
  rcases Finset.mem_insert.mp hid with hid | hid
  · exact .inl hid
  · exact .inr (h id hid)

/-- A mark takes ids out of `unread` at most, and leaves the inbox, the times and the dedup keys. -/
theorem mark_frame {unreadIds : List Text} {phase phase' : MarkPhase} {keys' : NotificationKeys}
    (h : keys.mark unreadIds phase = some (keys', phase')) :
    keys'.unread ⊆ keys.unread ∧ keys'.inbox = keys.inbox ∧ keys'.now = keys.now ∧
      keys'.dedup = keys.dedup ∧ keys'.inboxExpireAt = keys.inboxExpireAt ∧
      keys'.unreadExpireAt = keys.unreadExpireAt := by
  cases phase with
  | members =>
    simp only [NotificationKeys.mark] at h
    split at h <;> cases h
    exact ⟨Finset.Subset.refl _, rfl, rfl, rfl, rfl, rfl⟩
  | remove id =>
    cases h
    exact ⟨Finset.erase_subset _ _, rfl, rfl, rfl, rfl, rfl⟩
  | delete =>
    cases h
    exact ⟨Finset.empty_subset _, rfl, rfl, rfl, rfl, rfl⟩
  | returning => cases h
  | _ =>
    cases h
    exact ⟨Finset.Subset.refl _, rfl, rfl, rfl, rfl, rfl⟩

end

/-! ## The steps -/

section

variable {maxItems : ℤ} {s t : State Thread}

omit [DecidableEq Thread] in
/-- **An accepted publish.** -/
theorem kept_accept (hs : Kept maxItems s) {p : Publish}
    (hnew : s.keys.dedup p.dedupSuffix = none) :
    Kept maxItems { s with
      keys := (s.keys.add p).trim (max 1 maxItems)
      accepted := s.accepted ++ [⟨p.dedupSuffix, s.keys.now, p.dedupMillis⟩] } := by
  have hadded := mem_add_unread hs.unread p
  -- the key was free, so the time of the earlier ones is up
  have hpassed : ∀ a ∈ s.accepted, a.dedupSuffix = p.dedupSuffix →
      a.time + a.dedupMillis ≤ s.keys.now := by
    intro a ha hsame
    rcases hs.dedup a ha with h | ⟨expireAt, h, -⟩
    · exact h
    · rw [hsame, hnew] at h
      cases h
  have hfields : ((s.keys.add p).trim (max 1 maxItems)).now = s.keys.now ∧
      ((s.keys.add p).trim (max 1 maxItems)).dedup = (s.keys.add p).dedup ∧
      ((s.keys.add p).trim (max 1 maxItems)).unreadExpireAt =
        ((s.keys.add p).trim (max 1 maxItems)).inboxExpireAt := by
    rw [trim_eq]
    exact ⟨rfl, rfl, rfl⟩
  obtain ⟨hnow, hdedup, hexpire⟩ := hfields
  refine ⟨?_, fun id hid => ((mem_trim_unread hadded).mp hid).2, hexpire, fun a ha => ?_, ?_⟩
  · rw [(newest_trim (by omega) _).length_eq]
    exact min_le_left _ _
  · rw [hnow, hdedup]
    by_cases hsame : a.dedupSuffix = p.dedupSuffix
    · rcases List.mem_append.mp ha with ha | ha
      · exact .inl (hpassed a ha hsame)
      · rw [List.mem_singleton.mp ha]
        exact .inr ⟨_, Function.update_self _ _ _, le_rfl⟩
    · rcases List.mem_append.mp ha with ha | ha
      · rcases hs.dedup a ha with h | ⟨expireAt, h, hle⟩
        · exact .inl h
        · exact .inr ⟨expireAt, (Function.update_of_ne hsame _ _).trans h, hle⟩
      · rw [List.mem_singleton.mp ha] at hsame
        exact absurd rfl hsame
  · refine List.pairwise_append.mpr ⟨hs.apart, List.pairwise_singleton _ _, fun a ha b hb => ?_⟩
    rw [List.mem_singleton.mp hb]
    exact hpassed a ha

omit [DecidableEq Thread] in
/-- Time passes: `unread` expires with `inbox`. -/
theorem kept_elapse (hs : Kept maxItems s) (millis : ℕ) :
    Kept maxItems { s with keys := s.keys.elapse (s.keys.now + millis) } := by
  refine ⟨?_, fun id hid => ?_, hs.expireAt, fun a ha => ?_, hs.apart⟩
  · simp only [NotificationKeys.elapse]
    split
    · exact hs.size
    · exact (le_max_left 1 maxItems).trans' (by decide)
  · simp only [NotificationKeys.elapse, hs.expireAt] at hid ⊢
    split at hid
    · rename_i halive
      rw [if_pos halive]
      exact hs.unread id hid
    · exact absurd hid (Finset.notMem_empty id)
  · rcases hs.dedup a ha with h | ⟨expireAt, h, hle⟩
    · exact .inl (h.trans (Int.le_add_of_nonneg_right (Int.natCast_nonneg _)))
    · by_cases hup : s.keys.now + millis < expireAt
      · refine .inr ⟨expireAt, ?_, hle⟩
        simp [NotificationKeys.elapse, h, hup]
      · exact .inl (hle.trans (not_lt.mp hup))

theorem kept_withMark (hs : Kept maxItems s) (th : Thread) (mark : Option MarkPhase) :
    Kept maxItems (s.withMark th mark) :=
  ⟨hs.size, hs.unread, hs.expireAt, hs.dedup, hs.apart⟩

omit [DecidableEq Thread] in
theorem kept_mark (hs : Kept maxItems s) {unreadIds : List Text} {phase phase' : MarkPhase}
    {keys' : NotificationKeys} (h : s.keys.mark unreadIds phase = some (keys', phase')) :
    Kept maxItems { s with keys := keys' } := by
  obtain ⟨hunread, hinbox, hnow, hdedup, hi, hu⟩ := mark_frame h
  refine ⟨hinbox ▸ hs.size, fun id hid => hinbox ▸ hs.unread id (hunread hid), ?_, ?_, hs.apart⟩
  · exact hu.trans (hs.expireAt.trans hi.symm)
  · rw [hnow, hdedup]
    exact hs.dedup

/-- **The step lemma.** -/
theorem kept_step {a : Action Thread} (hs : Kept maxItems s) (hstep : step maxItems s a = some t) :
    Kept maxItems t := by
  cases a with
  | publish p =>
    rcases publish_cases maxItems p s.keys with ⟨-, h⟩ | ⟨hnew, h⟩
    · simp only [step, h, Bool.false_eq_true, if_false, List.append_nil] at hstep
      cases hstep
      exact hs
    · simp only [step, h, if_true] at hstep
      cases hstep
      exact kept_accept hs hnew
  | markRead th notificationId =>
    simp only [step] at hstep
    split at hstep <;> cases hstep
    exact kept_withMark hs th _
  | markAllRead th =>
    simp only [step] at hstep
    split at hstep <;> cases hstep
    exact kept_withMark hs th _
  | next th unreadIds =>
    obtain ⟨phase, -, hstep⟩ := Option.bind_eq_some_iff.mp hstep
    split at hstep
    · cases hstep
      exact kept_withMark hs th none
    · obtain ⟨⟨keys', phase'⟩, hmark, hstep⟩ := Option.map_eq_some_iff.mp hstep
      cases hstep
      exact kept_withMark (kept_mark hs hmark) th (some phase')
  | elapse millis =>
    cases hstep
    exact kept_elapse hs millis

omit [DecidableEq Thread] in
theorem kept_init (maxItems now : ℤ) : Kept maxItems (State.init now : State Thread) where
  size := (le_max_left 1 maxItems).trans' (show (0 : ℤ) ≤ 1 by decide)
  unread := nofun
  expireAt := rfl
  dedup := nofun
  apart := List.Pairwise.nil

/-- **The inbox.** In every run with the property `maxItems`: no id is unread that is not in the
inbox; between two publishes accepted under one dedup key at least its time passes; and after every
publish the inbox has at most `maxItems` ids, after an accepted one the newest of those before it
and the new one, and after a refused one the keys are as they were. -/
theorem inbox_bounded {now : ℤ} {actions : List (Action Thread)}
    (hrun : run (step maxItems) (.init now) actions = some s) :
    (∀ id ∈ s.keys.unread, id ∈ s.keys.inbox.members) ∧
    (s.accepted.Pairwise fun a b =>
      a.dedupSuffix = b.dedupSuffix → a.time + a.dedupMillis ≤ b.time) ∧
    ∀ p t, step maxItems s (.publish p) = some t →
      (t.keys.inbox.members.length : ℤ) ≤ max 1 maxItems ∧
      if (s.keys.publish maxItems p).1 then
        Newest (max 1 maxItems) (s.keys.inbox.zadd p.currentTime.toInt p.id) t.keys.inbox
      else t.keys = s.keys := by
  have hs := run_invariant' (fun _ _ _ hs hstep => kept_step hs hstep) (kept_init maxItems now) hrun
  refine ⟨hs.unread, hs.apart, fun p t hstep => ⟨(kept_step hs hstep).size, ?_⟩⟩
  rcases publish_cases maxItems p s.keys with ⟨-, h⟩ | ⟨-, h⟩
  · simp only [step, h] at hstep ⊢
    cases hstep
    rfl
  · simp only [step, h] at hstep ⊢
    cases hstep
    exact newest_trim (by omega) (s.keys.add p)

end

/-- A reminder with the id, the dedup key and the clock reading. -/
def reminder (notificationId : Long) (deduplicationKey : Option Text) (currentTime : Long) :
    Publish :=
  ⟨notificationId, ['R'], ['t'], ['c'], some 2, deduplicationKey, currentTime, 30, 300⟩

/-- Three reminders with one key, the second too early, the third with an older clock. -/
def threeReminders : List (Action Bool) :=
  [.publish (reminder 1 (some ['k']) 50), .elapse 1000, .publish (reminder 2 (some ['k']) 60),
    .elapse 299000, .publish (reminder 3 (some ['k']) 40), .markAllRead true]

theorem inbox_bounded_threeReminders :
    ∃ s : State Bool, run (step 1) (.init 0) threeReminders = some s ∧
      (s.keys.inbox.members = [['1']] ∧ s.accepted.length = 2) ∧
      (∀ id ∈ s.keys.unread, id ∈ s.keys.inbox.members) ∧
      (s.accepted.Pairwise fun a b =>
        a.dedupSuffix = b.dedupSuffix → a.time + a.dedupMillis ≤ b.time) ∧
      ∀ p t, step 1 s (.publish p) = some t →
        (t.keys.inbox.members.length : ℤ) ≤ max 1 1 ∧
        if (s.keys.publish 1 p).1 then
          Newest (max 1 1) (s.keys.inbox.zadd p.currentTime.toInt p.id) t.keys.inbox
        else t.keys = s.keys := by
  obtain ⟨s, hrun, hend⟩ := Option.map_eq_some_iff.mp
    (show (run (step 1) (State.init 0) threeReminders).map (fun s =>
      decide (s.keys.inbox.members = [['1']] ∧ s.accepted.length = 2)) = some true by
        decide +kernel)
  exact ⟨s, hrun, of_decide_eq_true hend, inbox_bounded hrun⟩

end Hmdp.Notification
