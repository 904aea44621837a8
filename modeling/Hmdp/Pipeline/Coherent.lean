import Hmdp.Consumer.Persist
import Hmdp.Pipeline.Step

/-!
# What the stores say about one another

`Coherent` is the invariant every safety result about the pipeline rests on. Whatever is in a
store or in flight stands for an accepted order: its handoff member, its quarantine entry, its
outbox row, its order row, a message, a relay's task. Conversely an accepted order is always in
the handoff set, in quarantine or in the outbox (`custody`), and it is in the accepted hash exactly
while it is in one of the first two (`accepted`). A row MySQL rejects is never in the outbox and
only such a row is ever quarantined, so the two ways a member leaves the handoff set never meet.

Each action has one lemma. An update of the outbox, a Redis write that leaves the three
reservation keys, and a change of what is in flight are framed once (`Coherent.of_updateOutbox`,
`Coherent.of_redis`, `Coherent.of_db`).

* **`coherent_step`**, **`coherent_run`**: every run keeps it.
-/

namespace Hmdp.Pipeline

open Hmdp.Lib Hmdp.Model

/-! ## Where an accepted order is -/

/-- The handoff zset of the voucher holds the reservation. -/
def InHandoff (redis : Redis) (r : Reservation) : Prop :=
  r.member ∈ (redis.handoff r.voucherId).members

/-- The reservation has been put into quarantine. -/
def InQuarantine (redis : Redis) (r : Reservation) : Prop :=
  ∃ reason, (⟨r.voucherId, r.member, reason⟩ : QuarantineEntry) ∈ redis.quarantine

/-- The outbox table has a row of the reservation. -/
def InOutbox (db : Db) (r : Reservation) : Prop :=
  ∃ e ∈ db.outbox.rows, e.reservation = r

/-! ## What is in flight -/

/-- The events of a relay's batch and their members. -/
structure BatchOk (granted : List Reservation) (v : VoucherId)
    (events : List SeckillOrderOutboxEvent) (members : List Text) : Prop where
  members : members = events.map fun e => e.reservation.member
  granted : ∀ e ∈ events, e.reservation ∈ granted
  voucherId : ∀ e ∈ events, e.voucherId = v
  eventId : ∀ e ∈ events, e.eventId = e.orderId.toText
  status : ∀ e ∈ events, e.status = .pending

/-- What a task of a handoff round carries has been granted, and saved if it says so. -/
def TaskOk (rejects : Reservation → Bool) (granted : List Reservation) (db : Db) :
    RelayTask → Prop
  | .quarantine v m _ => ∃ r ∈ granted, r.voucherId = v ∧ r.member = m ∧ rejects r = true
  | .persist v events members => BatchOk granted v events members
  | .complete v events members =>
    BatchOk granted v events members ∧ ∀ e ∈ events, InOutbox db e.reservation

/-- The message of an outbox row. -/
def MessageOk (db : Db) (m : SeckillOrderMessage) : Prop :=
  ∃ e ∈ db.outbox.rows, m.orderId = some e.orderId ∧ m.voucherId = some e.voucherId ∧
    m.userId = some e.userId ∧ (m.outboxId = none ∨ m.outboxId = some e.id)

/-- What a recovery has read of the order still holds. -/
def RecoveryOk (db : Db) : Recovery → Prop
  | .looked event _ orderExists => orderExists = true → db.hasOrder event.orderId = true
  | _ => True

/-- The order a cancellation has selected is a row. -/
def SelectedOk (db : Db) (order : VoucherOrder) : Prop :=
  ∃ o ∈ db.orders.rows, o.id = order.id ∧ o.userId = order.userId ∧ o.voucherId = order.voucherId

/-! ## The invariant -/

/-- **The invariant** of the pipeline: every granted reservation has an id of its own and is in
custody, and what the stores and the calls have has been granted. -/
structure Coherent (rejects : Reservation → Bool) (s : State) : Prop where
  ids : (s.granted.map Reservation.orderId).Nodup
  issued : ∀ r ∈ s.granted, r.orderId ∈ s.issued
  handoff : ∀ v, ∀ m ∈ (s.redis.handoff v).members,
    ∃ r ∈ s.granted, r.voucherId = v ∧ r.member = m
  quarantine : ∀ q ∈ s.redis.quarantine,
    ∃ r ∈ s.granted, r.voucherId = q.voucherId ∧ r.member = q.member ∧ rejects r = true
  custody : ∀ r ∈ s.granted, InHandoff s.redis r ∨ InQuarantine s.redis r ∨ InOutbox s.db r
  accepted : ∀ o, (s.redis.accepted o).isSome ↔
    ∃ r ∈ s.granted, r.orderId = o ∧ (InHandoff s.redis r ∨ InQuarantine s.redis r)
  outbox : ∀ e ∈ s.db.outbox.rows,
    e.reservation ∈ s.granted ∧ e.eventId = e.orderId.toText ∧ rejects e.reservation = false
  completed : ∀ e ∈ s.db.outbox.rows, e.status = .completed → s.db.hasOrder e.orderId = true
  orders : ∀ o ∈ s.db.orders.rows, ∃ r, InOutbox s.db r ∧
    r.orderId = o.id ∧ r.userId = o.userId ∧ r.voucherId = o.voucherId
  relays : ∀ i, ∀ t ∈ s.relays i, TaskOk rejects s.granted s.db t
  acks : ∀ r ∈ s.acks, InOutbox s.db r
  kafka : ∀ m ∈ s.kafka, MessageOk s.db m
  recoveries : ∀ i recovery, s.recoveries i = some recovery → RecoveryOk s.db recovery
  cancels : ∀ i order, s.cancels i = some order → SelectedOk s.db order

variable {rejects : Reservation → Bool} {s t : State} {r r' : Reservation}

theorem Start.coherent (h : Start s) : Coherent rejects s where
  ids := by simp [h.granted]
  issued := by simp [h.granted]
  handoff := by simp [h.handoff]
  quarantine := by simp [h.quarantine]
  custody := by simp [h.granted]
  accepted := by simp [h.accepted, h.granted]
  outbox := by simp [h.outbox]
  completed := by simp [h.outbox]
  orders := by simp [h.orders]
  relays := by simp [h.relays]
  acks := by simp [h.acks]
  kafka := by simp [h.kafka]
  recoveries := by simp [h.recoveries]
  cancels := by simp [h.cancels]

namespace Coherent

/-- An order id determines the accepted order. -/
theorem unique (h : Coherent rejects s) (hr : r ∈ s.granted) (hr' : r' ∈ s.granted)
    (hid : r.orderId = r'.orderId) : r = r' :=
  List.inj_on_of_nodup_map h.ids hr hr' hid

theorem granted_of_inOutbox (h : Coherent rejects s) (hr : InOutbox s.db r) : r ∈ s.granted := by
  obtain ⟨e, he, rfl⟩ := hr
  exact (h.outbox e he).1

/-- Only rejected orders are quarantined. -/
theorem rejects_of_inQuarantine (h : Coherent rejects s) (hq : InQuarantine s.redis r) :
    r ∈ s.granted ∧ rejects r = true := by
  obtain ⟨reason, hq⟩ := hq
  obtain ⟨r', hr', hv, hm, hrej⟩ := h.quarantine _ hq
  rw [← buildMember_injective hv hm]
  exact ⟨hr', hrej⟩

/-- Quarantine and outbox never share an order. -/
theorem not_inQuarantine (h : Coherent rejects s) (ho : InOutbox s.db r) :
    ¬InQuarantine s.redis r := by
  intro hq
  obtain ⟨e, he, rfl⟩ := ho
  have := (h.outbox e he).2.2
  rw [(h.rejects_of_inQuarantine hq).2] at this
  exact absurd this (by simp)

/-- The order a message stands for. -/
theorem messageOk_granted (h : Coherent rejects s) {m : SeckillOrderMessage} (hm : m ∈ s.kafka) :
    ∃ r ∈ s.granted, InOutbox s.db r ∧ m.orderId = some r.orderId ∧
      m.voucherId = some r.voucherId ∧ m.userId = some r.userId := by
  obtain ⟨e, he, ho, hv, hu, -⟩ := h.kafka m hm
  exact ⟨e.reservation, (h.outbox e he).1, ⟨e, he, rfl⟩, ho, hv, hu⟩

end Coherent

/-! ## Frames -/

/-- `db'` still has every outbox and order row of `db`, as far as they say whose they are. -/
structure Grows (db db' : Db) : Prop where
  outbox : ∀ e ∈ db.outbox.rows,
    ∃ e' ∈ db'.outbox.rows, e'.reservation = e.reservation ∧ e'.id = e.id
  orders : ∀ o ∈ db.orders.rows,
    ∃ o' ∈ db'.orders.rows, o'.id = o.id ∧ o'.userId = o.userId ∧ o'.voucherId = o.voucherId

namespace Grows

variable {db db' : Db}

theorem inOutbox (h : Grows db db') (hr : InOutbox db r) : InOutbox db' r := by
  obtain ⟨e, he, rfl⟩ := hr
  obtain ⟨e', he', hres, -⟩ := h.outbox e he
  exact ⟨e', he', hres⟩

theorem hasOrder (h : Grows db db') {o : OrderId} (ho : db.hasOrder o = true) :
    db'.hasOrder o = true := by
  obtain ⟨row, hrow, hid⟩ := Db.hasOrder_iff.mp ho
  obtain ⟨row', hrow', hid', -⟩ := h.orders row hrow
  exact Db.hasOrder_iff.mpr ⟨row', hrow', hid'.trans hid⟩

theorem messageOk (h : Grows db db') {m : SeckillOrderMessage} (hm : MessageOk db m) :
    MessageOk db' m := by
  obtain ⟨e, he, ho, hv, hu, hi⟩ := hm
  obtain ⟨e', he', hres, hid⟩ := h.outbox e he
  refine ⟨e', he', ?_, ?_, ?_, by rwa [hid]⟩
  · rw [ho, show e'.orderId = e.orderId from congrArg Reservation.orderId hres]
  · rw [hv, show e'.voucherId = e.voucherId from congrArg Reservation.voucherId hres]
  · rw [hu, show e'.userId = e.userId from congrArg Reservation.userId hres]

theorem taskOk (h : Grows db db') {granted : List Reservation} {task : RelayTask}
    (ht : TaskOk rejects granted db task) : TaskOk rejects granted db' task := by
  cases task with
  | quarantine v m reason => exact ht
  | persist v events members => exact ht
  | complete v events members => exact ⟨ht.1, fun e he => h.inOutbox (ht.2 e he)⟩

theorem recoveryOk (h : Grows db db') {recovery : Recovery} (hr : RecoveryOk db recovery) :
    RecoveryOk db' recovery := by
  cases recovery with
  | read event deadLetter => trivial
  | looked event deadLetter orderExists => exact fun he => h.hasOrder (hr he)
  | failed event => trivial

theorem selectedOk (h : Grows db db') {order : VoucherOrder} (hs : SelectedOk db order) :
    SelectedOk db' order := by
  obtain ⟨o, ho, hid, hu, hv⟩ := hs
  obtain ⟨o', ho', hid', hu', hv'⟩ := h.orders o ho
  exact ⟨o', ho', hid'.trans hid, hu'.trans hu, hv'.trans hv⟩

theorem refl (db : Db) : Grows db db :=
  ⟨fun e he => ⟨e, he, rfl, rfl⟩, fun o ho => ⟨o, ho, rfl, rfl, rfl⟩⟩

theorem trans {db'' : Db} (h : Grows db db') (h' : Grows db' db'') : Grows db db'' := by
  constructor
  · intro e he
    obtain ⟨e', he', hres, hid⟩ := h.outbox e he
    obtain ⟨e'', he'', hres', hid'⟩ := h'.outbox e' he'
    exact ⟨e'', he'', hres'.trans hres, hid'.trans hid⟩
  · intro o ho
    obtain ⟨o', ho', hid, hu, hv⟩ := h.orders o ho
    obtain ⟨o'', ho'', hid', hu', hv'⟩ := h'.orders o' ho'
    exact ⟨o'', ho'', hid'.trans hid, hu'.trans hu, hv'.trans hv⟩

theorem updateOutbox (sel : OutboxRow → Bool) (f : OutboxUpdate) (db : Db) :
    Grows db (updateOutbox sel f db).2 := by
  refine ⟨fun e he => ⟨_, mem_updateOutbox.mpr ⟨e, he, rfl⟩, ?_⟩, (refl db).orders⟩
  split
  · exact ⟨f.reservation_apply e, f.id_apply e⟩
  · exact ⟨rfl, rfl⟩

theorem insertCommitted {events accepted : List SeckillOrderOutboxEvent}
    (h : insertCommitted rejects events db = .ok (accepted, db')) : Grows db db' := by
  rw [(insertCommitted_ok h).2.1]
  exact ⟨fun e he => ⟨e, mem_insertIgnoreBatch.mpr (Or.inl he), rfl, rfl⟩, (refl db).orders⟩

theorem persisted {tx : Transaction} {orders : List OrderDraft}
    (h : Persisted tx db orders (voucherIds orders) db') : Grows db db' :=
  ⟨fun e he => ⟨e, by rwa [h.outbox], rfl, rfl⟩,
    fun o ho => ⟨o, h.mem_rows.mpr (Or.inl ho), rfl, rfl, rfl⟩⟩

theorem createOrders {tx : Transaction} {messages : List SeckillOrderMessage}
    {os : List OrderDraft} (h : createOrders tx messages db = .ok (os, db')) : Grows db db' := by
  obtain ⟨c, d, -, -, hp, ⟨-, rfl⟩ | rfl⟩ := createOrders_ok h
  · exact persisted hp
  · obtain ⟨sel, heq, -⟩ := completeOutbox_eq tx c d
    rw [heq]
    exact (persisted hp).trans (updateOutbox _ _ d)

end Grows

/-- **A transaction** that keeps the rows and whose new rows are in order. -/
theorem Coherent.of_db {db : Db} (h : Coherent rejects s) (hg : Grows s.db db)
    (outbox : ∀ e ∈ db.outbox.rows,
      e.reservation ∈ s.granted ∧ e.eventId = e.orderId.toText ∧ rejects e.reservation = false)
    (completed : ∀ e ∈ db.outbox.rows, e.status = .completed → db.hasOrder e.orderId = true)
    (orders : ∀ o ∈ db.orders.rows, ∃ r, InOutbox db r ∧
      r.orderId = o.id ∧ r.userId = o.userId ∧ r.voucherId = o.voucherId) :
    Coherent rejects { s with db := db } where
  ids := h.ids
  issued := h.issued
  handoff := h.handoff
  quarantine := h.quarantine
  custody r hr := (h.custody r hr).imp_right fun hc => hc.imp_right hg.inOutbox
  accepted := h.accepted
  outbox := outbox
  completed := completed
  orders := orders
  relays i task ht := hg.taskOk (h.relays i task ht)
  acks r hr := hg.inOutbox (h.acks r hr)
  kafka m hm := hg.messageOk (h.kafka m hm)
  recoveries i recovery hr := hg.recoveryOk (h.recoveries i recovery hr)
  cancels i order ho := hg.selectedOk (h.cancels i order ho)

/-- **A Redis write** that leaves the handoff sets, the quarantine and the accepted hash. -/
theorem Coherent.of_redis {redis : Redis} (h : Coherent rejects s)
    (hh : redis.handoff = s.redis.handoff) (hq : redis.quarantine = s.redis.quarantine)
    (ha : redis.accepted = s.redis.accepted) : Coherent rejects { s with redis := redis } where
  ids := h.ids
  issued := h.issued
  handoff := by
    simp only [hh]
    exact h.handoff
  quarantine := by
    simp only [hq]
    exact h.quarantine
  custody := by
    simp only [InHandoff, InQuarantine, hh, hq]
    exact h.custody
  accepted := by
    simp only [InHandoff, InQuarantine, hh, hq, ha]
    exact h.accepted
  outbox := h.outbox
  completed := h.completed
  orders := h.orders
  relays := h.relays
  acks := h.acks
  kafka := h.kafka
  recoveries := h.recoveries
  cancels := h.cancels

/-- **What a relay has left to do.** -/
theorem Coherent.of_relays (h : Coherent rejects s) (i : ℕ) {tasks : List RelayTask}
    (ht : ∀ task ∈ tasks, TaskOk rejects s.granted s.db task) :
    Coherent rejects { s with relays := Function.update s.relays i tasks } :=
  { h with
    relays := (Function.forall_update_iff s.relays fun _ tasks =>
      ∀ task ∈ tasks, TaskOk rejects s.granted s.db task).mpr ⟨ht, fun j _ => h.relays j⟩ }

/-- **A call of the recovery service.** -/
theorem Coherent.of_recoveries (h : Coherent rejects s) (i : ℕ) {next : Option Recovery}
    (hn : ∀ recovery, next = some recovery → RecoveryOk s.db recovery) :
    Coherent rejects { s with recoveries := Function.update s.recoveries i next } :=
  { h with
    recoveries := (Function.forall_update_iff s.recoveries fun _ next =>
      ∀ recovery, next = some recovery → RecoveryOk s.db recovery).mpr
        ⟨hn, fun j _ => h.recoveries j⟩ }

/-- **A cancellation that has selected its order.** -/
theorem Coherent.of_cancels (h : Coherent rejects s) (i : ℕ) {next : Option VoucherOrder}
    (hn : ∀ order, next = some order → SelectedOk s.db order) :
    Coherent rejects { s with cancels := Function.update s.cancels i next } :=
  { h with
    cancels := (Function.forall_update_iff s.cancels fun _ next =>
      ∀ order, next = some order → SelectedOk s.db order).mpr ⟨hn, fun j _ => h.cancels j⟩ }

/-! ## Outbox updates -/

/-- **An update of outbox rows** completes only rows whose order exists. -/
theorem Coherent.of_updateOutbox (h : Coherent rejects s) (sel : OutboxRow → Bool)
    (f : OutboxUpdate) (hf : ∀ e ∈ s.db.outbox.rows, sel e = true →
      (f.apply e).status = .completed → s.db.hasOrder e.orderId = true) :
    Coherent rejects { s with db := (updateOutbox sel f s.db).2 } := by
  have hrow : ∀ e ∈ s.db.outbox.rows, (if sel e then f.apply e else e).reservation =
      e.reservation ∧ (if sel e then f.apply e else e).eventId = e.eventId := by
    intro e _
    split
    · exact ⟨f.reservation_apply e, f.eventId_apply e⟩
    · exact ⟨rfl, rfl⟩
  have hgrow := Grows.updateOutbox sel f s.db
  refine h.of_db hgrow ?_ ?_ ?_
  · intro e he
    obtain ⟨e₀, he₀, rfl⟩ := mem_updateOutbox.mp he
    obtain ⟨hres, hev⟩ := hrow e₀ he₀
    have hid := congrArg Reservation.orderId hres
    obtain ⟨hg, hevent, hrej⟩ := h.outbox e₀ he₀
    rw [hres, hev]
    exact ⟨hg, hevent.trans (congrArg Long.toText hid.symm), hrej⟩
  · intro e he hstatus
    obtain ⟨e₀, he₀, rfl⟩ := mem_updateOutbox.mp he
    have hid : (if sel e₀ then f.apply e₀ else e₀).orderId = e₀.orderId :=
      congrArg Reservation.orderId (hrow e₀ he₀).1
    rw [hid]
    show s.db.hasOrder e₀.orderId = true
    by_cases hsel : sel e₀ = true
    · rw [if_pos hsel] at hstatus
      exact hf e₀ he₀ hsel hstatus
    · rw [if_neg hsel] at hstatus
      exact h.completed e₀ he₀ hstatus
  · intro o ho
    obtain ⟨r, hr, hids⟩ := h.orders o ho
    exact ⟨r, hgrow.inOutbox hr, hids⟩

/-- The statements that never complete a row. -/
theorem Coherent.of_updateOutbox_ne (h : Coherent rejects s) (sel : OutboxRow → Bool)
    (f : OutboxUpdate) (hf : ∀ e, sel e = true → (f.apply e).status ≠ .completed) :
    Coherent rejects { s with db := (updateOutbox sel f s.db).2 } :=
  h.of_updateOutbox sel f fun e _ hsel hstatus => absurd hstatus (hf e hsel)

end Hmdp.Pipeline
