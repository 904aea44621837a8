import Hmdp.Model.Mysql
import Hmdp.Model.Redis

/-!
# From the handoff set to the outbox

`SeckillOrderOutboxBatchWriter.insertCommitted` (one transaction), `SeckillOrderHandoffService`
and the round of `SeckillOrderHandoffRelay`. A round is the list of what is left to do: each
Redis script and each MySQL transaction is one task, and a batch that MySQL refuses becomes two
halves, down to single members, which are quarantined. A relay that stops between two tasks
leaves the rest undone.

`rejects` stands for MySQL's own integrity checks: a statement that contains a rejected row fails
as a whole.

* `insertCommitted_ok`: after a normal return every event has a committed row with its event id
  and its order, and the outbox has grown by rows of the events only.
* `insertCommitted_isOk_iff`: a batch is accepted iff no row is rejected and each event ends up with
  its own row.
* `insertCommitted_isOk`: events whose order ids determine them, over a table of such rows, are
  refused only when MySQL rejects one.
-/

namespace Hmdp.Model

open Hmdp.Lib

/-! ## `insertCommitted` -/

/-- The exceptions of `insertCommitted`: MySQL's `DataIntegrityViolationException`, and the two
`SeckillOutboxEventConflictException`s. -/
inductive OutboxError where
  | dataIntegrity
  | incomplete
  | conflict (orderId : OrderId)
  deriving DecidableEq

/-- The row of the requested order carries the same event. -/
def matchesRequest (persisted : List OutboxRow) (requested : SeckillOrderOutboxEvent) : Bool :=
  match persisted.find? fun e => decide (e.orderId = requested.orderId) with
  | none => false
  | some actual => decide (requested.eventId = actual.eventId ∧
      requested.voucherId = actual.voucherId ∧ requested.userId = actual.userId ∧
      requested.autoIssued = actual.autoIssued)

/-- `insertCommitted`: the accepted events by order id, and the committed state. -/
def insertCommitted (rejects : Reservation → Bool) (events : List SeckillOrderOutboxEvent)
    (db : Db) : Except OutboxError (List SeckillOrderOutboxEvent × Db) :=
  if events.any fun e => rejects e.reservation then .error .dataIntegrity
  else
    let inserted := insertIgnoreBatch events db
    if inserted.1 = events.length then .ok (events, inserted.2)
    else
      let orderIds := events.map fun e => e.orderId
      let persisted := findByOrderIds orderIds inserted.2
      if persisted.length ≠ orderIds.dedup.length then .error .incomplete
      else
        match events.find? fun e => !matchesRequest persisted e with
        | some requested => .error (.conflict requested.orderId)
        | none => .ok (persisted.map fun e => e.toSeckillOrderOutboxEvent, inserted.2)

/-- **A normal return means a committed row for every event.** -/
theorem insertCommitted_ok {rejects : Reservation → Bool} {events : List SeckillOrderOutboxEvent}
    {db db' : Db} {accepted : List SeckillOrderOutboxEvent}
    (h : insertCommitted rejects events db = .ok (accepted, db')) :
    (∀ e ∈ events, rejects e.reservation = false) ∧ db' = (insertIgnoreBatch events db).2 ∧
      ∀ e ∈ events, ∃ row ∈ db'.outbox.rows,
        row.reservation = e.reservation ∧ row.eventId = e.eventId := by
  unfold insertCommitted at h
  split at h
  · exact absurd h (by simp)
  rename_i hrej
  have hrej' : ∀ e ∈ events, rejects e.reservation = false := by
    intro e he
    by_contra hc
    exact hrej (List.any_eq_true.mpr ⟨e, he, by simpa using hc⟩)
  simp only at h
  split at h
  · rename_i hall
    simp only [Except.ok.injEq, Prod.mk.injEq] at h
    obtain ⟨-, rfl⟩ := h
    refine ⟨hrej', rfl, fun e he => ?_⟩
    have hrows : newRows outboxKeys.clash db.outbox.rows (numbered db.outboxSeq events) =
        numbered db.outboxSeq events :=
      (newRows_length_eq_iff _ _).mp (by rw [length_numbered]; exact hall)
    obtain ⟨row, hrow, hres, hev⟩ := @exists_numbered events e db.outboxSeq he
    exact ⟨row, mem_insertIgnoreBatch.mpr (Or.inr (by rw [hrows]; exact hrow)), hres, hev⟩
  split at h
  · exact absurd h (by simp)
  split at h
  · exact absurd h (by simp)
  rename_i hfind
  simp only [Except.ok.injEq, Prod.mk.injEq] at h
  obtain ⟨-, rfl⟩ := h
  refine ⟨hrej', rfl, fun e he => ?_⟩
  have hm : matchesRequest (findByOrderIds (events.map fun e => e.orderId)
      (insertIgnoreBatch events db).2) e = true := by
    simpa using List.find?_eq_none.mp hfind e he
  unfold matchesRequest at hm
  split at hm
  · exact absurd hm (by simp)
  rename_i actual hactual
  simp only [decide_eq_true_eq] at hm
  obtain ⟨hev, hv, hu, ha⟩ := hm
  have hid : actual.orderId = e.orderId := by simpa using List.find?_some hactual
  refine ⟨actual, (List.mem_filter.mp (List.mem_of_find?_eq_some hactual)).1, ?_, hev.symm⟩
  simp only [SeckillOrderOutboxEvent.reservation, hid, hv, hu, ha]

/-- An event that is returned has a committed row. -/
theorem insertCommitted_accepted {rejects : Reservation → Bool}
    {events : List SeckillOrderOutboxEvent} {db db' : Db}
    {accepted : List SeckillOrderOutboxEvent}
    (h : insertCommitted rejects events db = .ok (accepted, db')) :
    ∀ e ∈ accepted, ∃ row ∈ db'.outbox.rows, row.reservation = e.reservation := by
  intro e he
  have hok := (insertCommitted_ok h).2.2
  unfold insertCommitted at h
  split at h
  · exact absurd h (by simp)
  simp only at h
  split at h
  · simp only [Except.ok.injEq, Prod.mk.injEq] at h
    obtain ⟨rfl, -⟩ := h
    obtain ⟨row, hrow, hres, -⟩ := hok e he
    exact ⟨row, hrow, hres⟩
  split at h
  · exact absurd h (by simp)
  split at h
  · exact absurd h (by simp)
  simp only [Except.ok.injEq, Prod.mk.injEq] at h
  obtain ⟨rfl, rfl⟩ := h
  obtain ⟨row, hrow, rfl⟩ := List.mem_map.mp he
  exact ⟨row, (List.mem_filter.mp hrow).1, rfl⟩

/-- The rows after `insertCommitted`: the old ones, and rows of its events. -/
theorem mem_insertCommitted {rejects : Reservation → Bool}
    {events : List SeckillOrderOutboxEvent} {db db' : Db}
    {accepted : List SeckillOrderOutboxEvent}
    (h : insertCommitted rejects events db = .ok (accepted, db')) {row : OutboxRow}
    (hrow : row ∈ db'.outbox.rows) : row ∈ db.outbox.rows ∨
      ∃ e ∈ events, row.reservation = e.reservation ∧ row.eventId = e.eventId ∧
        row.status = e.status := by
  rw [(insertCommitted_ok h).2.1] at hrow
  rcases mem_insertIgnoreBatch.mp hrow with hrow | hrow
  · exact Or.inl hrow
  · exact Or.inr (mem_numbered (mem_rows_of_mem_newRows hrow)).2

/-- After the insert every event's order has a row, when event ids are the texts of the order
ids. -/
theorem exists_row_insertIgnoreBatch {events : List SeckillOrderOutboxEvent} {db : Db}
    (hrows : ∀ row ∈ db.outbox.rows, row.eventId = row.orderId.toText)
    (hevents : ∀ e ∈ events, e.eventId = e.orderId.toText) {e : SeckillOrderOutboxEvent}
    (he : e ∈ events) :
    ∃ row ∈ (insertIgnoreBatch events db).2.outbox.rows, row.orderId = e.orderId := by
  obtain ⟨n, hn, hres, hev⟩ := @exists_numbered events e db.outboxSeq he
  have hno : n.orderId = e.orderId := congrArg Reservation.orderId hres
  obtain ⟨row, hrow, hclash⟩ := @insertIgnore_covers _ outboxKeys.clash
    db.outbox.rows _ outboxKeys.refl n hn
  refine ⟨row, hrow, ?_⟩
  have hnew : row ∈ db.outbox.rows ∨ row ∈ numbered db.outboxSeq events :=
    (List.mem_append.mp hrow).imp_right mem_rows_of_mem_newRows
  rcases outboxKeys_clash.mp hclash with hid | hevent | hid
  · rcases hnew with hold | hnum
    · have := db.outbox_lt row hold
      have := (mem_numbered hn).1.1
      omega
    · rw [numbered_id_injective hnum hn hid.symm, hno]
  · refine Long.toText_injective ?_
    rw [← hevents e he, ← hev, hevent]
    rcases hnew with hold | hnum
    · exact (hrows row hold).symm
    · obtain ⟨-, f, hf, hfres, hfev, -⟩ := mem_numbered hnum
      rw [hfev, hevents f hf, show row.orderId = f.orderId from congrArg Reservation.orderId hfres]
  · rw [← hid, hno]

/-- **When a batch is accepted**: MySQL rejects none of its rows, and after the insert every event
has its own row, with its event id and its order. -/
theorem insertCommitted_isOk_iff {rejects : Reservation → Bool}
    {events : List SeckillOrderOutboxEvent} {db : Db} :
    (∃ r, insertCommitted rejects events db = .ok r) ↔
      (∀ e ∈ events, rejects e.reservation = false) ∧
        ∀ e ∈ events, ∃ row ∈ (insertIgnoreBatch events db).2.outbox.rows,
          row.reservation = e.reservation ∧ row.eventId = e.eventId := by
  constructor
  · rintro ⟨⟨accepted, db'⟩, h⟩
    obtain ⟨hrej, rfl, hrows⟩ := insertCommitted_ok h
    exact ⟨hrej, hrows⟩
  rintro ⟨hrej, hrows⟩
  have hany : events.any (fun e => rejects e.reservation) = false := by
    rw [List.any_eq_false]
    intro e he
    simp [hrej e he]
  unfold insertCommitted
  rw [hany]
  simp only [Bool.false_eq_true, if_false]
  generalize (insertIgnoreBatch events db).1 = inserted at *
  generalize (insertIgnoreBatch events db).2 = db' at *
  have hexists : ∀ e ∈ events, ∃ row ∈ db'.outbox.rows, row.orderId = e.orderId := by
    intro e he
    obtain ⟨row, hrow, hres, -⟩ := hrows e he
    exact ⟨row, hrow, congrArg Reservation.orderId hres⟩
  split
  · exact ⟨_, rfl⟩
  have hlength : (findByOrderIds (events.map fun e => e.orderId) db').length =
      (events.map fun e => e.orderId).dedup.length := by
    have hperm : ((findByOrderIds (events.map fun e => e.orderId) db').map
        fun e => e.orderId).Perm (events.map fun e => e.orderId).dedup := by
      refine (List.perm_ext_iff_of_nodup ((List.filter_sublist.map _).nodup db'.outbox_nodup)
        (List.nodup_dedup _)).mpr fun o => ?_
      rw [List.mem_dedup]
      constructor
      · intro h
        obtain ⟨row, hr, rfl⟩ := List.mem_map.mp h
        simpa using (List.mem_filter.mp hr).2
      · intro h
        obtain ⟨e, he, rfl⟩ := List.mem_map.mp h
        obtain ⟨row, hr, hid⟩ := hexists e he
        have hin : row ∈ findByOrderIds (events.map fun e => e.orderId) db' :=
          List.mem_filter.mpr ⟨hr, by simpa [hid] using ⟨e, he, rfl⟩⟩
        exact List.mem_map.mpr ⟨row, hin, hid⟩
    rw [← hperm.length_eq, List.length_map]
  rw [if_neg (by simpa using hlength)]
  have hnone : (events.find? fun e =>
      !matchesRequest (findByOrderIds (events.map fun e => e.orderId) db') e) = none := by
    rw [List.find?_eq_none]
    intro e he
    obtain ⟨row, hr, hres, hev⟩ := hrows e he
    have hid : row.orderId = e.orderId := congrArg Reservation.orderId hres
    unfold matchesRequest
    cases hf : (findByOrderIds (events.map fun e => e.orderId) db').find?
        fun x => decide (x.orderId = e.orderId) with
    | none =>
      have hmem : row ∈ findByOrderIds (events.map fun e => e.orderId) db' :=
        List.mem_filter.mpr ⟨hr, by simpa [hid] using ⟨e, he, rfl⟩⟩
      exact absurd (by simpa using hid) (List.find?_eq_none.mp hf row hmem)
    | some actual =>
      have hin := (List.mem_filter.mp (List.mem_of_find?_eq_some hf)).1
      have hactual : actual.orderId = e.orderId := by simpa using List.find?_some hf
      -- the order id determines the row
      have heq : actual = row := db'.outbox.eq_of_clash hin hr
        (outboxKeys_clash.mpr (Or.inr (Or.inr (hactual.trans hid.symm))))
      subst heq
      have hv : actual.voucherId = e.voucherId := congrArg Reservation.voucherId hres
      have hu : actual.userId = e.userId := congrArg Reservation.userId hres
      have ha : actual.autoIssued = e.autoIssued := congrArg Reservation.autoIssued hres
      simp [hev, hv, hu, ha]
  rw [hnone]
  exact ⟨_, rfl⟩

/-- **Only a rejected row refuses a batch**, when the order ids determine the events. -/
theorem insertCommitted_isOk {rejects : Reservation → Bool}
    {events : List SeckillOrderOutboxEvent} {db : Db}
    (hrej : ∀ e ∈ events, rejects e.reservation = false)
    (hrows : ∀ row ∈ db.outbox.rows, row.eventId = row.orderId.toText)
    (hevents : ∀ e ∈ events, e.eventId = e.orderId.toText)
    (hold : ∀ e ∈ events, ∀ row ∈ db.outbox.rows, row.orderId = e.orderId →
      row.reservation = e.reservation)
    (hbatch : ∀ e ∈ events, ∀ f ∈ events, e.orderId = f.orderId →
      e.reservation = f.reservation) :
    ∃ r, insertCommitted rejects events db = .ok r := by
  refine insertCommitted_isOk_iff.mpr ⟨hrej, fun e he => ?_⟩
  obtain ⟨row, hr, hid⟩ := exists_row_insertIgnoreBatch hrows hevents he
  refine ⟨row, hr, ?_⟩
  rcases mem_insertIgnoreBatch.mp hr with hr | hr
  · exact ⟨hold e he row hr hid, by rw [hrows row hr, hevents e he, hid]⟩
  · obtain ⟨-, f, hf, hres, hev, -⟩ := mem_numbered (mem_rows_of_mem_newRows hr)
    have hfid : f.orderId = e.orderId :=
      (congrArg Reservation.orderId hres).symm.trans hid
    exact ⟨hres.trans (hbatch f hf e he hfid), by
      rw [hev, hevents f hf, hevents e he, hfid]⟩

/-! ## `SeckillOrderHandoffService` -/

/-- The arguments of the completion script: each member with the order id of its event. -/
def completeArguments (events : List SeckillOrderOutboxEvent) (members : List Text) :
    List (Text × OrderId) :=
  members.zip (events.map fun e => e.orderId)

/-- `completeBatch`; `none` is its `IllegalArgumentException`. -/
def completeBatch (v : VoucherId) (events : List SeckillOrderOutboxEvent) (members : List Text)
    (s : Redis) : Option (ℤ × Redis) :=
  if events = [] ∨ members = [] then some (0, s)
  else if members.length < events.length then none
  else some (handoffComplete v (completeArguments events members) s)

/-- `SeckillOrderOutboxService.completeHandoff`. -/
def completeHandoff (r : Reservation) (s : Redis) : Redis :=
  (handoffComplete r.voucherId [(r.member, r.orderId)] s).2

/-! ## A relay round -/

/-- One thing a relay has left to do in its round. -/
inductive RelayTask where
  | quarantine (voucherId : VoucherId) (member : Text) (reason : QuarantineReason)
  /-- `persistWithIsolation`, up to the end of `insertCommitted` -/
  | persist (voucherId : VoucherId) (events : List SeckillOrderOutboxEvent) (members : List Text)
  /-- `completeBatch` after `insertCommitted` has returned -/
  | complete (voucherId : VoucherId) (events : List SeckillOrderOutboxEvent)
      (members : List Text)

/-- The loop of `relayOneRound` over the members fetched for a voucher. -/
def fetchTasks (now : Time) (v : VoucherId) (members : List Text) : List RelayTask :=
  (members.filter fun m => (parseMember v m).isNone).map
      (fun m => RelayTask.quarantine v m .malformed) ++
    [.persist v (members.filterMap (parse now v))
      (members.filter fun m => (parseMember v m).isSome)]

/-- What `persistWithIsolation` does when the batch is refused: quarantine a single member, or
handle the two halves. -/
def isolate (v : VoucherId) (events : List SeckillOrderOutboxEvent) (members : List Text) :
    List RelayTask :=
  if events.length = 1 then
    (members.take 1).map fun m => .quarantine v m .dataIntegrity
  else
    let middle := events.length / 2
    [.persist v (events.take middle) (members.take middle),
      .persist v (events.drop middle) (members.drop middle)]

/-- Run one task: what it leaves to do, and the new state; `none` where it throws. -/
def runTask (rejects : Reservation → Bool) (task : RelayTask) (s : Redis) (db : Db) :
    Option (List RelayTask × Redis × Db) :=
  match task with
  | .quarantine v member reason => some ([], (handoffQuarantine v member reason s).2, db)
  | .persist v events members =>
    if events = [] then some ([], s, db)
    else
      match insertCommitted rejects events db with
      | .ok (_, db') => some ([.complete v events members], s, db')
      | .error _ => some (isolate v events members, s, db)
  | .complete v events members =>
    (completeBatch v events members s).map fun r => ([], r.2, db)

/-- What a task does to Redis. -/
theorem runTask_redis {rejects : Reservation → Bool} {task : RelayTask} {s s' : Redis}
    {db db' : Db} {more : List RelayTask}
    (h : runTask rejects task s db = some (more, s', db')) :
    s' = s ∨
      (∃ v m reason, task = .quarantine v m reason ∧ s' = (handoffQuarantine v m reason s).2) ∨
      ∃ v events members, task = .complete v events members ∧
        s' = (handoffComplete v (completeArguments events members) s).2 := by
  unfold runTask at h
  cases task with
  | quarantine v m reason =>
    cases h
    exact Or.inr (Or.inl ⟨v, m, reason, rfl, rfl⟩)
  | persist v events members =>
    simp only at h
    split at h
    · cases h
      exact Or.inl rfl
    · split at h <;> cases h <;> exact Or.inl rfl
  | complete v events members =>
    obtain ⟨⟨n, redis⟩, hb, hres⟩ := Option.map_eq_some_iff.mp h
    cases hres
    unfold completeBatch at hb
    split at hb
    · cases hb
      exact Or.inl rfl
    split at hb
    · exact absurd hb (by simp)
    · exact Or.inr (Or.inr ⟨v, events, members, rfl,
        (congrArg Prod.snd (Option.some.inj hb)).symm⟩)

end Hmdp.Model
