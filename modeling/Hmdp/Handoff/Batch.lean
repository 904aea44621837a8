import Hmdp.Model.Handoff
import Mathlib.Data.Finset.Lattice.Lemmas

/-!
# A batch and its rows one by one

`INSERT IGNORE` of a batch inserts what the rows would insert one after the other, and the check
of `insertCommitted` passes for the batch iff it passes for each row when its turn comes: a later
row of the batch never helps or hurts an earlier one, since what it would have to repeat is the
very key that keeps it out of the table. So a batch is accepted iff its two halves are, the second
over the table the first has left.

The `AUTO_INCREMENT` ids take no part in this: a rolled-back statement loses its ids, so the rows
are compared as events (`SameEvents`).

* **`accepted_append`**: a batch is accepted iff its parts are, in order.
* `handoffComplete_cons`: the script of a batch is the scripts of its members.
-/

namespace Hmdp.Handoff

open Hmdp.Lib Hmdp.Model

/-! ## The outbox without its ids -/

/-- The unique indexes of the outbox besides its id. -/
def eventKeys : Keys SeckillOrderOutboxEvent :=
  (Keys.on fun e => e.eventId).or (Keys.on fun e => e.orderId)

/-- The rows of the outbox without their ids. -/
def outboxEvents (db : Db) : List SeckillOrderOutboxEvent :=
  db.outbox.rows.map OutboxRow.toSeckillOrderOutboxEvent

/-- Equal up to `AUTO_INCREMENT` ids. -/
structure SameEvents (db db' : Db) : Prop where
  stock : db.stock = db'.stock
  orders : db.orders = db'.orders
  outbox : outboxEvents db = outboxEvents db'

theorem SameEvents.refl (db : Db) : SameEvents db db := ⟨rfl, rfl, rfl⟩

theorem SameEvents.symm {db db' : Db} (h : SameEvents db db') : SameEvents db' db :=
  ⟨h.stock.symm, h.orders.symm, h.outbox.symm⟩

theorem SameEvents.trans {db db' db'' : Db} (h : SameEvents db db') (h' : SameEvents db' db'') :
    SameEvents db db'' :=
  ⟨h.stock.trans h'.stock, h.orders.trans h'.orders, h.outbox.trans h'.outbox⟩

/-- `AUTO_INCREMENT` values taken by statements that were rolled back. -/
def loseIds (n : ℕ) (db : Db) : Db :=
  { db with
    outboxSeq := db.outboxSeq + n
    outbox_lt := fun e he => Nat.lt_add_right n (db.outbox_lt e he) }

theorem sameEvents_loseIds (n : ℕ) (db : Db) : SameEvents (loseIds n db) db := ⟨rfl, rfl, rfl⟩

theorem eventKeys_clash {a b : SeckillOrderOutboxEvent} :
    eventKeys.clash a b = true ↔ a.eventId = b.eventId ∨ a.orderId = b.orderId := by
  simp [eventKeys, Keys.or, Keys.on, sameKey]

/-- The new rows of a statement, as events: their ids never clash. -/
theorem newRows_events {events : List SeckillOrderOutboxEvent}
    (hfresh : ∀ e ∈ events, e.retryCount = 0) :
    ∀ {seq : ℕ} {table : List OutboxRow}, (∀ r ∈ table, r.id < seq) →
      (newRows outboxKeys.clash table (numbered seq events)).map
          OutboxRow.toSeckillOrderOutboxEvent =
        newRows eventKeys.clash (table.map OutboxRow.toSeckillOrderOutboxEvent) events := by
  induction events with
  | nil => exact fun _ => rfl
  | cons e events ih =>
    intro seq table hseq
    have hrest := fun x hx => hfresh x (List.mem_cons_of_mem e hx)
    have hzero : ({ e with retryCount := 0 } : SeckillOrderOutboxEvent) = e := by
      rw [← hfresh e List.mem_cons_self]
    have hany : table.any (outboxKeys.clash { e with id := seq, retryCount := 0 }) =
        (table.map OutboxRow.toSeckillOrderOutboxEvent).any (eventKeys.clash e) := by
      rw [Bool.eq_iff_iff, List.any_map, List.any_eq_true, List.any_eq_true]
      refine exists_congr fun r => and_congr_right fun hr => ?_
      rw [outboxKeys_clash]
      simp only [Function.comp_apply, eventKeys_clash]
      have := hseq r hr
      constructor
      · rintro (hid | hkey)
        · exact absurd hid (Nat.ne_of_gt this)
        · exact hkey
      · exact Or.inr
    unfold numbered newRows
    rw [hany]
    split
    · exact ih hrest fun r hr => Nat.lt_succ_of_lt (hseq r hr)
    · rw [List.map_cons, ih hrest fun r hr => ?_, List.map_append]
      · simp only [List.map_cons, List.map_nil, hzero]
      · rcases List.mem_append.mp hr with hr | hr
        · exact Nat.lt_succ_of_lt (hseq r hr)
        · rw [List.mem_singleton.mp hr]
          exact Nat.lt_succ_self seq

theorem outboxEvents_insertIgnoreBatch {events : List SeckillOrderOutboxEvent}
    (hfresh : ∀ e ∈ events, e.retryCount = 0) (db : Db) :
    outboxEvents (insertIgnoreBatch events db).2 =
      insertIgnore eventKeys.clash (outboxEvents db) events := by
  unfold insertIgnore
  rw [outboxEvents, outboxEvents, ← newRows_events hfresh db.outbox_lt, ← List.map_append]
  rfl

theorem sameEvents_insertIgnoreBatch {events : List SeckillOrderOutboxEvent}
    (hfresh : ∀ e ∈ events, e.retryCount = 0) {db db' : Db} (h : SameEvents db db') :
    SameEvents (insertIgnoreBatch events db).2 (insertIgnoreBatch events db').2 := by
  refine ⟨h.stock, h.orders, ?_⟩
  rw [outboxEvents_insertIgnoreBatch hfresh, outboxEvents_insertIgnoreBatch hfresh, h.outbox]

/-! ## When a batch is accepted -/

/-- The row is that of the event. -/
def Carries (row e : SeckillOrderOutboxEvent) : Prop :=
  row.reservation = e.reservation ∧ row.eventId = e.eventId

/-- `insertCommitted` returns normally over a table of these events. -/
def Accepted (rejects : Reservation → Bool) (table events : List SeckillOrderOutboxEvent) : Prop :=
  ∀ e ∈ events, rejects e.reservation = false ∧
    ∃ row ∈ insertIgnore eventKeys.clash table events, Carries row e

theorem insertCommitted_isOk_iff_accepted {rejects : Reservation → Bool}
    {events : List SeckillOrderOutboxEvent} (hfresh : ∀ e ∈ events, e.retryCount = 0) (db : Db) :
    (∃ r, insertCommitted rejects events db = .ok r) ↔
      Accepted rejects (outboxEvents db) events := by
  rw [insertCommitted_isOk_iff, ← forall₂_and]
  refine forall₂_congr fun e _ => and_congr_right fun _ => ?_
  rw [← outboxEvents_insertIgnoreBatch hfresh, outboxEvents]
  simp only [List.mem_map, exists_exists_and_eq_and]
  rfl

/-- **A batch is accepted iff its parts are**, the second over the table the first has left. -/
theorem accepted_append {rejects : Reservation → Bool}
    {table events events' : List SeckillOrderOutboxEvent} :
    Accepted rejects table (events ++ events') ↔
      Accepted rejects table events ∧
        Accepted rejects (insertIgnore eventKeys.clash table events) events' := by
  unfold Accepted
  rw [insertIgnore_append]
  constructor
  · intro h
    refine ⟨fun e he => ⟨(h e (List.mem_append_left _ he)).1, ?_⟩,
      fun e he => h e (List.mem_append_right _ he)⟩
    obtain ⟨row, hrow, hcarries⟩ := (h e (List.mem_append_left _ he)).2
    rcases List.mem_append.mp hrow with hrow | hrow
    · exact ⟨row, hrow, hcarries⟩
    -- a row of the second part repeats no key of the table, and the table has one of `e`
    · obtain ⟨s, hs, hclash⟩ :=
        @insertIgnore_covers _ eventKeys.clash table _ eventKeys.refl e he
      have hsame : eventKeys.clash row s = true := by
        rw [eventKeys_clash] at hclash ⊢
        rwa [hcarries.2, show row.orderId = e.orderId from congrArg Reservation.orderId hcarries.1]
      rw [not_clash_of_mem_newRows hrow hs] at hsame
      exact absurd hsame (by simp)
  · rintro ⟨h, h'⟩ e he
    rcases List.mem_append.mp he with he | he
    · obtain ⟨hrej, row, hrow, hcarries⟩ := h e he
      exact ⟨hrej, row, List.mem_append_left _ hrow, hcarries⟩
    · exact h' e he

/-! ## The two scripts -/

/-- Members are taken out of a handoff set, entries put into quarantine and fields of the accepted
hash deleted: what both scripts do. -/
def takeOut (v : VoucherId) (members : List Text) (entries : Finset QuarantineEntry)
    (orderIds : List OrderId) (redis : Redis) : Redis :=
  { redis with
    handoff := Function.update redis.handoff v ((redis.handoff v).zrem members).2
    quarantine := entries ∪ redis.quarantine
    accepted := fun o => if o ∈ orderIds then none else redis.accepted o }

theorem handoffComplete_eq (v : VoucherId) (arguments : List (Text × OrderId)) (redis : Redis) :
    (handoffComplete v arguments redis).2 =
      takeOut v (arguments.map Prod.fst) ∅ (arguments.map Prod.snd) redis := by
  unfold handoffComplete takeOut
  split
  · rename_i h
    subst h
    simp [ZSet.zrem_nil]
  · simp

theorem handoffQuarantine_eq {v : VoucherId} {member : Text} (reason : QuarantineReason)
    {redis : Redis} (h : member ∈ (redis.handoff v).members) :
    (handoffQuarantine v member reason redis).2 =
      takeOut v [member] {⟨v, member, reason⟩} [] redis := by
  rcases handoffQuarantine_cases v member reason redis with ⟨hout, -⟩ | ⟨-, heq⟩
  · exact absurd h hout
  · rw [heq]
    simp [takeOut, Finset.singleton_union]

theorem handoffQuarantine_of_not_mem {v : VoucherId} {member : Text} (reason : QuarantineReason)
    {redis : Redis} (h : member ∉ (redis.handoff v).members) :
    (handoffQuarantine v member reason redis).2 = redis := by
  rcases handoffQuarantine_cases v member reason redis with ⟨-, heq⟩ | ⟨hin, -⟩
  · exact heq
  · exact absurd hin h

/-- The handoff sets after a quarantine. -/
theorem handoff_handoffQuarantine (v : VoucherId) (member : Text) (reason : QuarantineReason)
    (redis : Redis) : (handoffQuarantine v member reason redis).2.handoff =
      Function.update redis.handoff v ((redis.handoff v).zrem [member]).2 := by
  rcases handoffQuarantine_cases v member reason redis with ⟨hout, heq⟩ | ⟨-, heq⟩
  · rw [heq, ZSet.zrem_eq_self _ (by simpa using hout), Function.update_eq_self]
  · rw [heq]

/-- Two writes are one. -/
theorem takeOut_takeOut (v : VoucherId) (members members' : List Text)
    (entries entries' : Finset QuarantineEntry) (orderIds orderIds' : List OrderId)
    (redis : Redis) :
    takeOut v members' entries' orderIds' (takeOut v members entries orderIds redis) =
      takeOut v (members ++ members') (entries ∪ entries') (orderIds ++ orderIds') redis := by
  have haccepted : (fun o => if o ∈ orderIds' then none else
      if o ∈ orderIds then none else redis.accepted o) =
        fun o => if o ∈ orderIds ++ orderIds' then none else redis.accepted o := by
    funext o
    by_cases ho : o ∈ orderIds <;> by_cases ho' : o ∈ orderIds' <;> simp [ho, ho']
  simp only [takeOut, Function.update_self, Function.update_idem, ZSet.zrem_zrem, haccepted,
    Finset.union_comm entries entries', Finset.union_assoc]

theorem takeOut_congr {v : VoucherId} {members members' : List Text}
    {entries entries' : Finset QuarantineEntry} {orderIds orderIds' : List OrderId} {redis : Redis}
    (hmembers : ∀ x, x ∈ members ↔ x ∈ members') (hentries : entries = entries')
    (horders : ∀ o, o ∈ orderIds ↔ o ∈ orderIds') :
    takeOut v members entries orderIds redis = takeOut v members' entries' orderIds' redis := by
  have haccepted : (fun o => if o ∈ orderIds then none else redis.accepted o) =
      fun o => if o ∈ orderIds' then none else redis.accepted o :=
    funext fun o => if_congr (horders o) rfl rfl
  unfold takeOut
  rw [ZSet.zrem_congr _ hmembers, haccepted, hentries]

/-- **The order of two writes does not matter.** -/
theorem takeOut_comm (v : VoucherId) (members members' : List Text)
    (entries entries' : Finset QuarantineEntry) (orderIds orderIds' : List OrderId)
    (redis : Redis) :
    takeOut v members' entries' orderIds' (takeOut v members entries orderIds redis) =
      takeOut v members entries orderIds (takeOut v members' entries' orderIds' redis) := by
  rw [takeOut_takeOut, takeOut_takeOut]
  exact takeOut_congr (fun x => by simp [or_comm]) (Finset.union_comm _ _)
    (fun o => by simp [or_comm])

/-- **A quarantine and a write for other members** commute. -/
theorem quarantine_takeOut_comm {v : VoucherId} {member member' : Text} (hne : member ≠ member')
    (reason : QuarantineReason) (entries : Finset QuarantineEntry) (orderIds : List OrderId)
    (redis : Redis) :
    (handoffQuarantine v member reason (takeOut v [member'] entries orderIds redis)).2 =
      takeOut v [member'] entries orderIds (handoffQuarantine v member reason redis).2 := by
  have hmem : member ∈ ((takeOut v [member'] entries orderIds redis).handoff v).members ↔
      member ∈ (redis.handoff v).members := by
    simp [takeOut, hne]
  by_cases hin : member ∈ (redis.handoff v).members
  · rw [handoffQuarantine_eq reason hin, handoffQuarantine_eq reason (hmem.mpr hin),
      takeOut_comm]
  · rw [handoffQuarantine_of_not_mem reason hin,
      handoffQuarantine_of_not_mem reason (fun h => hin (hmem.mp h))]

theorem quarantine_comm {v : VoucherId} {member member' : Text} (hne : member ≠ member')
    (reason reason' : QuarantineReason) (redis : Redis) :
    (handoffQuarantine v member reason (handoffQuarantine v member' reason' redis).2).2 =
      (handoffQuarantine v member' reason' (handoffQuarantine v member reason redis).2).2 := by
  have hmem : member' ∈ ((handoffQuarantine v member reason redis).2.handoff v).members ↔
      member' ∈ (redis.handoff v).members := by
    rw [handoff_handoffQuarantine]
    simp [Ne.symm hne]
  by_cases hin : member' ∈ (redis.handoff v).members
  · rw [handoffQuarantine_eq reason' hin, handoffQuarantine_eq reason' (hmem.mpr hin),
      quarantine_takeOut_comm hne]
  · rw [handoffQuarantine_of_not_mem reason' hin,
      handoffQuarantine_of_not_mem reason' (fun h => hin (hmem.mp h))]

/-- The script of a batch is the scripts of its members. -/
theorem handoffComplete_cons (v : VoucherId) (p : Text × OrderId) (ps : List (Text × OrderId))
    (redis : Redis) : (handoffComplete v (p :: ps) redis).2 =
      (handoffComplete v ps (handoffComplete v [p] redis).2).2 := by
  simp only [handoffComplete_eq, takeOut_takeOut]
  rfl

end Hmdp.Handoff
