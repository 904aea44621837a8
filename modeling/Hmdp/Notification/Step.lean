import Hmdp.Lib.Machine
import Hmdp.Model.Notification

/-!
# Publishing and marking

Any number of clients of one user publish, `markRead` and `markAllRead` beside each other, and time
passes. A publish is one step, the other two one step a statement.

The effect of the script is said once: `publishLua_cases`, with `trim_eq` for its loop.
-/

namespace Hmdp.Notification

open Hmdp.Lib Hmdp.Model

/-- A publish that has been accepted. -/
structure Accepted where
  dedupSuffix : Text
  time : ℤ
  dedupMillis : ℤ
  deriving DecidableEq

/-- The keys of one user and the calls that mark his notifications as read. -/
structure State (Thread : Type) where
  keys : NotificationKeys
  marks : Thread → Option MarkPhase
  /-- ghost: the accepted publishes, in order -/
  accepted : List Accepted

/-- The steps: the publish script, the statements of a mark, and time. -/
inductive Action (Thread : Type) where
  | publish (p : Publish)
  | markRead (th : Thread) (notificationId : Long)
  | markAllRead (th : Thread)
  /-- the next statement of a mark, or its return -/
  | next (th : Thread) (unreadIds : List Text)
  | elapse (millis : ℕ)

variable {Thread : Type} [DecidableEq Thread]

/-- Empty keys at the given time. -/
def State.init (now : ℤ) : State Thread := ⟨.empty now, fun _ => none, []⟩

/-- A mark begins, moves or ends. -/
def State.withMark (s : State Thread) (th : Thread) (mark : Option MarkPhase) : State Thread :=
  { s with marks := Function.update s.marks th mark }

/-- `maxItems` is the property. -/
def step (maxItems : ℤ) (s : State Thread) : Action Thread → Option (State Thread)
  | .publish p =>
    let r := s.keys.publish maxItems p
    let accepted := if r.1 then [⟨p.dedupSuffix, s.keys.now, p.dedupMillis⟩] else []
    some { s with keys := r.2, accepted := s.accepted ++ accepted }
  | .markRead th notificationId =>
    if (s.marks th).isNone then some (s.withMark th (some (markRead notificationId))) else none
  | .markAllRead th =>
    if (s.marks th).isNone then some (s.withMark th (some markAllRead)) else none
  | .next th unreadIds =>
    (s.marks th).bind fun phase =>
      match phase with
      | .returning => some (s.withMark th none)
      | phase =>
        (s.keys.mark unreadIds phase).map fun r => { s with keys := r.1 }.withMark th (some r.2)
  | .elapse millis => some { s with keys := s.keys.elapse (s.keys.now + millis) }

/-! ## The script -/

namespace Script

theorem foldl_expireId (ids : List Text) (keys : NotificationKeys) :
    ids.foldl NotificationKeys.expireId keys =
      { keys with inbox := (keys.inbox.zrem ids).2, unread := keys.unread.filter (· ∉ ids) } := by
  induction ids generalizing keys with
  | nil =>
    rw [ZSet.zrem_nil]
    simp
  | cons id ids ih =>
    rw [List.foldl_cons, ih]
    simp only [NotificationKeys.expireId, ZSet.zrem_zrem, List.singleton_append]
    congr 1
    ext x
    simp only [Finset.mem_filter, Finset.mem_erase, List.mem_cons, not_or]
    tauto

/-- **The loop of the script**: the lowest ids of the overflow leave both keys. -/
theorem trim_eq (maxItems : ℤ) (keys : NotificationKeys) :
    keys.trim maxItems =
      { keys with
        inbox := (keys.inbox.zrem
          (keys.inbox.range ((keys.inbox.members.length : ℤ) - maxItems).toNat)).2
        unread := keys.unread.filter
          (· ∉ keys.inbox.range ((keys.inbox.members.length : ℤ) - maxItems).toNat) } := by
  simp only [NotificationKeys.trim]
  split
  · rw [foldl_expireId]
  · rename_i hle
    rw [Int.toNat_of_nonpos (by omega)]
    simp [ZSet.range, ZSet.zrem_nil]

/-- **What a publish can do**: nothing, or add its id and trim. -/
theorem publish_cases (maxItems : ℤ) (p : Publish) (keys : NotificationKeys) :
    ((keys.dedup p.dedupSuffix).isSome = true ∧ keys.publish maxItems p = (false, keys)) ∨
      (keys.dedup p.dedupSuffix = none ∧
        keys.publish maxItems p = (true, (keys.add p).trim (max 1 maxItems))) := by
  unfold NotificationKeys.publish NotificationKeys.publishLua
  cases h : keys.dedup p.dedupSuffix with
  | none => exact .inr ⟨rfl, rfl⟩
  | some expireAt => exact .inl ⟨rfl, rfl⟩

end Script

end Hmdp.Notification
