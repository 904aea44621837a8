import Hmdp.Lib.Expiring
import Hmdp.Lib.SortedSet
import Hmdp.Model.Codec
import Mathlib.Data.Char
import Mathlib.Data.Finset.Card

/-!
# Notifications

The keys `notification:user:{<id>}:…` of one user, `notification_publish.lua` and the statements of
`UserNotificationServiceImpl.markRead`, `markAllRead` and `queryLatest`.

* Times are milliseconds of the server's clock, and a script takes place at one of them. A key whose
  time is up is gone for every command. A sorted set or a set without members is no key.
* The pipeline of `markAllRead` is a sequence of commands, between which others come.
* The parameters of a `publish` are not `null` (it throws before any command), and its times to
  live are less than `1e17`, from where on Lua writes an exponent that `PEXPIRE` refuses.
* The ids a `queryLatest` goes through are those of its `ZREVRANGE`, and one `HGETALL` each follows.
-/

namespace Hmdp.Model

open Hmdp.Lib

/-- The fields of a hash `detail:<id>`. -/
structure NotificationDetail where
  id : Option Text
  type : Option Text
  title : Option Text
  content : Option Text
  voucherId : Option Text
  read : Option Text
  createTime : Option Text
  deriving DecidableEq

/-- A hash that does not exist. -/
def NotificationDetail.empty : NotificationDetail := ⟨none, none, none, none, none, none, none⟩

/-- The keys of a user. -/
structure NotificationKeys where
  now : ℤ
  /-- when the key `dedup:<suffix>` expires -/
  dedup : Text → Option ℤ
  detail : Text → Option (Expiring NotificationDetail)
  /-- by `createTime` -/
  inbox : ZSet Text
  /-- when `inbox` expires, if it exists -/
  inboxExpireAt : ℤ
  unread : Finset Text
  unreadExpireAt : ℤ

/-- No keys. -/
def NotificationKeys.empty (now : ℤ) : NotificationKeys where
  now := now
  dedup _ := none
  detail _ := none
  inbox := .empty
  inboxExpireAt := 0
  unread := ∅
  unreadExpireAt := 0

/-- The arguments of a `publish`, the id and the clock readings it takes, and the properties. -/
structure Publish where
  notificationId : Long
  type : Text
  title : Text
  content : Text
  voucherId : Option Long
  deduplicationKey : Option Text
  /-- `System.currentTimeMillis` -/
  currentTime : Long
  retentionDays : ℤ
  dedupSeconds : ℤ

/-- The id as the script gets it. -/
def Publish.id (p : Publish) : Text := p.notificationId.toText

/-- The end of the deduplication key. -/
def Publish.dedupSuffix (p : Publish) : Text := p.deduplicationKey.getD p.id

/-- The TTL of the deduplication key. -/
def Publish.dedupMillis (p : Publish) : ℤ := max 1 p.dedupSeconds * 1000

/-- The TTL of the detail hash, of the inbox and of the unread set. -/
def Publish.retentionMillis (p : Publish) : ℤ := max 1 p.retentionDays * 86400000

/-- The `HSET` of the script. -/
def Publish.detail (p : Publish) : NotificationDetail where
  id := some p.id
  type := some p.type
  title := some p.title
  content := some p.content
  voucherId := some ((p.voucherId.map Long.toText).getD [])
  read := some ['0']
  createTime := some p.currentTime.toText

namespace NotificationKeys

/-- `ZREM` and `SREM` of an id of the overflow. -/
def expireId (s : NotificationKeys) (id : Text) : NotificationKeys :=
  { s with inbox := (s.inbox.zrem [id]).2, unread := s.unread.erase id }

/-- The end of the script, from `ZCARD` on. -/
def trim (maxItems : ℤ) (s : NotificationKeys) : NotificationKeys :=
  let overflow : ℤ := s.inbox.members.length - maxItems
  if 0 < overflow then (s.inbox.range overflow.toNat).foldl expireId s else s

/-- The script from `HSET` to the last `PEXPIRE`. -/
def add (p : Publish) (s : NotificationKeys) : NotificationKeys :=
  { s with
    dedup := Function.update s.dedup p.dedupSuffix (some (s.now + p.dedupMillis))
    detail := Function.update s.detail p.id (some ⟨p.detail, some (s.now + p.retentionMillis)⟩)
    inbox := s.inbox.zadd p.currentTime.toInt p.id
    inboxExpireAt := s.now + p.retentionMillis
    unread := insert p.id s.unread
    unreadExpireAt := s.now + p.retentionMillis }

/-- `notification_publish.lua`. -/
def publishLua (maxItems : ℤ) (p : Publish) (s : NotificationKeys) : ℤ × NotificationKeys :=
  if (s.dedup p.dedupSuffix).isSome then (0, s) else (1, (s.add p).trim maxItems)

/-- `publish`. -/
def publish (maxItems : ℤ) (p : Publish) (s : NotificationKeys) : Bool × NotificationKeys :=
  let r := s.publishLua (max 1 maxItems) p
  (decide (r.1 = 1), r.2)

/-- `HSET detail:<id> read 1`. -/
def putRead (s : NotificationKeys) (id : Text) : NotificationKeys :=
  let e := (s.detail id).getD ⟨.empty, none⟩
  let e' := { e with value := { e.value with read := some ['1'] } }
  { s with detail := Function.update s.detail id (some e') }

/-- `SREM unread <id>`. -/
def removeUnread (s : NotificationKeys) (id : Text) : NotificationKeys :=
  { s with unread := s.unread.erase id }

/-- `DEL unread`. -/
def deleteUnread (s : NotificationKeys) : NotificationKeys := { s with unread := ∅ }

/-- `countUnread`. -/
def countUnread (s : NotificationKeys) : ℕ := s.unread.card

/-- The field `read` of a notification. -/
def read (s : NotificationKeys) (id : Text) : Option Text :=
  (s.detail id).bind fun e => e.value.read

/-- The clock shows `now`: the keys whose time is up are gone. -/
def elapse (now : ℤ) (s : NotificationKeys) : NotificationKeys :=
  { s with
    now := now
    dedup := fun suffix => (s.dedup suffix).filter fun expireAt => decide (now < expireAt)
    detail := fun id => Expiring.left now (s.detail id)
    inbox := if now < s.inboxExpireAt then s.inbox else .empty
    unread := if now < s.unreadExpireAt then s.unread else ∅ }

end NotificationKeys

/-- Where a `markRead` or a `markAllRead` stands: the statement that is next. -/
inductive MarkPhase where
  /-- `markRead`: the `HSET`, and the `SREM` -/
  | put (id : Text)
  | remove (id : Text)
  /-- `markAllRead`: the `SMEMBERS`, the `HSET`s of the pipeline, its `DEL` -/
  | members
  | pipeline (id : Text) (ids : List Text)
  | delete
  | returning
  deriving DecidableEq

/-- The `HSET`s of the pipeline that are left, and then the `DEL`. -/
def MarkPhase.ofIds : List Text → MarkPhase
  | [] => .delete
  | id :: ids => .pipeline id ids

/-- `markRead` and `markAllRead`, from their first statement. -/
def markRead (notificationId : Long) : MarkPhase := .put notificationId.toText

/-- The method is entered. -/
def markAllRead : MarkPhase := .members

/-- The next statement; `unreadIds` is the order in which `SMEMBERS` gives the members. -/
def NotificationKeys.mark (s : NotificationKeys) (unreadIds : List Text) :
    MarkPhase → Option (NotificationKeys × MarkPhase)
  | .put id => some (s.putRead id, .remove id)
  | .remove id => some (s.removeUnread id, .returning)
  | .members =>
    if unreadIds.Nodup ∧ unreadIds.toFinset = s.unread then
      some (s, if unreadIds.isEmpty then .returning else .ofIds unreadIds)
    else none
  | .pipeline id ids => some (s.putRead id, .ofIds ids)
  | .delete => some (s.deleteUnread, .returning)
  | .returning => none

/-! ## `queryLatest` -/

/-- `UserNotificationDTO`. -/
structure UserNotificationDTO where
  id : Option Long
  type : Option Text
  title : Option Text
  content : Option Text
  voucherId : Option Long
  read : Bool
  createTime : Option Long
  deriving DecidableEq

/-- `parseLong`: `null` for no text, the empty one and one that is no number. -/
def parseLong (value : Option Text) : Option Long :=
  value.bind fun text => if text.isEmpty then none else Long.valueOf text

/-- `toDTO`. -/
def NotificationDetail.toDTO (fields : NotificationDetail) : UserNotificationDTO where
  id := parseLong fields.id
  type := fields.type
  title := fields.title
  content := fields.content
  voucherId := parseLong fields.voucherId
  read := decide (fields.read = some ['1'])
  createTime := parseLong fields.createTime

/-- How many ids a `queryLatest` asks for. -/
def pageSize (limit : Int32) : ℕ := (max 1 (min limit.toInt 100)).toNat

/-- `ZREVRANGE inbox 0 …`. -/
def NotificationKeys.latestIds (limit : Int32) (s : NotificationKeys) : List Text :=
  (s.inbox.revRange (pageSize limit)).map Prod.snd

/-- What the loop adds for an id: nothing where `HGETALL detail:<id>` is empty. -/
def NotificationKeys.entry (s : NotificationKeys) (id : Text) : Option UserNotificationDTO :=
  (s.detail id).map fun e => e.value.toDTO

/-- What is returned for the hash of a publish, with the field `read` as it may be by then. -/
def Publish.dto (p : Publish) (read : Bool) : UserNotificationDTO where
  id := some p.notificationId
  type := some p.type
  title := some p.title
  content := some p.content
  voucherId := p.voucherId
  read := read
  createTime := some p.currentTime

/-- What is returned for a hash that a `markRead` has made, of a notification that is gone. -/
def UserNotificationDTO.blank : UserNotificationDTO := ⟨none, none, none, none, none, true, none⟩

@[simp] theorem parseLong_toText (l : Long) : parseLong (some l.toText) = some l := by
  have hne : l.toText.isEmpty = false := by
    cases h : l.toText with
    | nil =>
      have hvalue := Long.valueOf_toText l
      rw [h] at hvalue
      exact absurd hvalue (by simp [Long.valueOf, readInt])
    | cons c rest => rfl
  rw [parseLong, Option.bind_some, hne, if_neg (by simp), Long.valueOf_toText]

end Hmdp.Model
