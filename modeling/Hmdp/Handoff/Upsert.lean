import Hmdp.Model.Handoff

/-!
# `insertCommitted` as an upsert

`insertCommitted` has two ways to a normal return: the row count of `INSERT IGNORE`, and a second
reading by order ids. Here the two are one: the call returns normally iff, after `INSERT IGNORE`,
every requested order id has a row that agrees with every request for it (`RowsAgree`). Then the
outbox has grown by exactly the missing rows (`Upserted`), and the call may be repeated.

* `rowsAgree_iff`: a row of one's own for every event is a row of one's own for every order id.
* `accepted_keys`: the keys of the returned map.
* `insertIgnoreBatch_again`: a batch whose orders all have rows adds nothing.
* **`insertCommitted_exact`**: upsert or reject.
-/

namespace Hmdp.Handoff

open Hmdp.Lib Hmdp.Model

variable {rejects : Reservation → Bool} {events accepted : List SeckillOrderOutboxEvent}
  {db db' : Db}

/-! ## What the call is for -/

/-- The row has what a repeated request must not change. -/
def agrees (row : OutboxRow) (requested : SeckillOrderOutboxEvent) : Prop :=
  row.eventId = requested.eventId ∧ row.voucherId = requested.voucherId ∧
    row.userId = requested.userId ∧ row.autoIssued = requested.autoIssued

/-- The requested order ids. -/
def requestedIds (events : List SeckillOrderOutboxEvent) : List OrderId :=
  events.map fun e => e.orderId

/-- Every requested order id has a row that agrees with every request for it. -/
def RowsAgree (events : List SeckillOrderOutboxEvent) (db : Db) : Prop :=
  ∀ o ∈ requestedIds events, ∃ row ∈ db.outbox.rows, row.orderId = o ∧
    ∀ e ∈ events, e.orderId = o → agrees row e

/-- What a normal return has done; `rows` are the new rows. -/
structure Upserted (events : List SeckillOrderOutboxEvent) (db : Db) (rows : List OutboxRow)
    (accepted : List SeckillOrderOutboxEvent) (db' : Db) : Prop where
  outbox : db'.outbox.rows = db.outbox.rows ++ rows
  /-- one new row for each requested order id … -/
  nodup : (requestedIds (rows.map OutboxRow.toSeckillOrderOutboxEvent)).Nodup
  /-- … that had none … -/
  missing : ∀ o, o ∈ requestedIds (rows.map OutboxRow.toSeckillOrderOutboxEvent) ↔
    o ∈ requestedIds events ∧ ∀ row ∈ db.outbox.rows, row.orderId ≠ o
  /-- … with what its requests say. -/
  content : ∀ row ∈ rows, ∀ e ∈ events, e.orderId = row.orderId → agrees row e
  /-- the keys of the returned map -/
  keys : ∀ o, o ∈ requestedIds accepted ↔ o ∈ requestedIds events
  orders : db'.orders = db.orders
  stock : db'.stock = db.stock

theorem mem_requestedIds {o : OrderId} :
    o ∈ requestedIds events ↔ ∃ e ∈ events, e.orderId = o :=
  List.mem_map

/-- Two rows of one order are one row. -/
theorem row_unique {r s : OutboxRow} (hr : r ∈ db.outbox.rows) (hs : s ∈ db.outbox.rows)
    (h : r.orderId = s.orderId) : r = s :=
  db.outbox.eq_of_clash hr hs (outboxKeys_clash.mpr (Or.inr (Or.inr h)))

theorem agrees_iff {row : OutboxRow} {e : SeckillOrderOutboxEvent} :
    row.orderId = e.orderId ∧ agrees row e ↔
      row.reservation = e.reservation ∧ row.eventId = e.eventId := by
  constructor
  · rintro ⟨ho, he, hv, hu, ha⟩
    exact ⟨by simp only [SeckillOrderOutboxEvent.reservation, ho, hv, hu, ha], he⟩
  · rintro ⟨hr, he⟩
    exact ⟨congrArg Reservation.orderId hr, he, congrArg Reservation.voucherId hr,
      congrArg Reservation.userId hr, congrArg Reservation.autoIssued hr⟩

/-- **A row for every event is a row for every order id**: the order id is a key. -/
theorem rowsAgree_iff : RowsAgree events db ↔ ∀ e ∈ events, ∃ row ∈ db.outbox.rows,
    row.reservation = e.reservation ∧ row.eventId = e.eventId := by
  constructor
  · intro h e he
    obtain ⟨row, hrow, ho, hag⟩ := h e.orderId (mem_requestedIds.mpr ⟨e, he, rfl⟩)
    exact ⟨row, hrow, agrees_iff.mp ⟨ho, hag e he rfl⟩⟩
  · intro h o ho
    obtain ⟨e, he, rfl⟩ := mem_requestedIds.mp ho
    obtain ⟨row, hrow, hre⟩ := h e he
    have hid := (agrees_iff.mpr hre).1
    refine ⟨row, hrow, hid, fun f hf hfe => ?_⟩
    obtain ⟨row', hrow', hre'⟩ := h f hf
    obtain ⟨hid', hag'⟩ := agrees_iff.mpr hre'
    have hsame : row = row' := row_unique hrow hrow' (hid.trans (hfe.symm.trans hid'.symm))
    exact hsame ▸ hag'

/-! ## A normal return -/

/-- **The keys of the returned map are the requested order ids.** -/
theorem accepted_keys (h : insertCommitted rejects events db = .ok (accepted, db')) (o : OrderId) :
    o ∈ requestedIds accepted ↔ o ∈ requestedIds events := by
  have hrows := (insertCommitted_ok h).2.2
  unfold insertCommitted at h
  split at h
  · exact absurd h (by simp)
  simp only at h
  split at h
  · simp only [Except.ok.injEq, Prod.mk.injEq] at h
    rw [h.1]
  split at h
  · exact absurd h (by simp)
  split at h
  · exact absurd h (by simp)
  -- the rows read by the requested order ids
  simp only [Except.ok.injEq, Prod.mk.injEq] at h
  obtain ⟨rfl, rfl⟩ := h
  rw [mem_requestedIds, mem_requestedIds]
  constructor
  · rintro ⟨a, ha, rfl⟩
    obtain ⟨row, hrow, rfl⟩ := List.mem_map.mp ha
    simpa using (List.mem_filter.mp hrow).2
  · rintro ⟨e, he, rfl⟩
    obtain ⟨row, hrow, hres, -⟩ := hrows e he
    have hid : row.orderId = e.orderId := congrArg Reservation.orderId hres
    refine ⟨_, List.mem_map_of_mem (List.mem_filter.mpr ⟨hrow, ?_⟩), hid⟩
    simpa [hid] using ⟨e, he, rfl⟩

/-- **A normal return adds exactly the missing rows.** -/
theorem upserted_of_ok (h : insertCommitted rejects events db = .ok (accepted, db')) :
    ∃ rows, Upserted events db rows accepted db' := by
  obtain ⟨-, hdb, hrows⟩ := insertCommitted_ok h
  have hagree : RowsAgree events db' := rowsAgree_iff.mpr hrows
  have hout : db'.outbox.rows = db.outbox.rows ++
      newRows outboxKeys.clash db.outbox.rows (numbered db.outboxSeq events) := by
    rw [hdb]
    rfl
  generalize hnew : newRows outboxKeys.clash db.outbox.rows (numbered db.outboxSeq events) = new
    at hout
  have hrequest : ∀ row ∈ new, row.orderId ∈ requestedIds events := by
    intro row hrow
    rw [← hnew] at hrow
    obtain ⟨-, e, he, hres, -⟩ := mem_numbered (mem_rows_of_mem_newRows hrow)
    exact mem_requestedIds.mpr ⟨e, he, (congrArg Reservation.orderId hres).symm⟩
  have hfresh : ∀ row ∈ new, ∀ old ∈ db.outbox.rows, old.orderId ≠ row.orderId := by
    intro row hrow old hold ho
    rw [← hnew] at hrow
    have hclash := not_clash_of_mem_newRows hrow hold
    rw [outboxKeys_clash.mpr (Or.inr (Or.inr ho.symm))] at hclash
    exact absurd hclash (by simp)
  refine ⟨new, hout, ?_, fun o => ?_, ?_, accepted_keys h, by rw [hdb]; rfl, by rw [hdb]; rfl⟩
  · have hn := db'.outbox_nodup
    rw [hout, List.map_append] at hn
    rw [requestedIds, List.map_map]
    exact (List.nodup_append.mp hn).2.1
  · rw [mem_requestedIds]
    constructor
    · rintro ⟨a, ha, rfl⟩
      obtain ⟨row, hrow, rfl⟩ := List.mem_map.mp ha
      exact ⟨hrequest row hrow, hfresh row hrow⟩
    · rintro ⟨ho, hmissing⟩
      obtain ⟨row, hrow, rfl, -⟩ := hagree o ho
      rw [hout] at hrow
      rcases List.mem_append.mp hrow with hrow | hrow
      · exact absurd rfl (hmissing row hrow)
      · exact ⟨_, List.mem_map_of_mem hrow, rfl⟩
  · intro row hrow e he ho
    obtain ⟨row', hrow', hid, hag⟩ := hagree row.orderId (hrequest row hrow)
    have hmem : row ∈ db'.outbox.rows := by
      rw [hout]
      exact List.mem_append_right _ hrow
    rw [row_unique hmem hrow' hid.symm]
    exact hag e he ho

/-! ## The same call again -/

/-- **Orders that have rows add none.** -/
theorem insertIgnoreBatch_again (h : RowsAgree events db) :
    (insertIgnoreBatch events db).2.outbox = db.outbox := by
  have hnil : newRows outboxKeys.clash db.outbox.rows (numbered db.outboxSeq events) = [] := by
    refine newRows_eq_nil fun n hn => ?_
    obtain ⟨-, e, he, hres, -⟩ := mem_numbered hn
    have hid : n.orderId = e.orderId := congrArg Reservation.orderId hres
    obtain ⟨row, hrow, ho, -⟩ := h e.orderId (mem_requestedIds.mpr ⟨e, he, rfl⟩)
    exact ⟨row, hrow, outboxKeys_clash.mpr (Or.inr (Or.inr (hid.trans ho.symm)))⟩
  have hrows : (insertIgnoreBatch events db).2.outbox.rows = db.outbox.rows := by
    show db.outbox.rows ++ newRows _ _ _ = _
    rw [hnil, List.append_nil]
  cases h' : (insertIgnoreBatch events db).2.outbox
  cases hd : db.outbox
  rw [h', hd] at hrows
  cases hrows
  rfl

/-- A call that returned normally may be repeated. -/
theorem insertCommitted_again (h : insertCommitted rejects events db = .ok (accepted, db')) :
    ∃ accepted' db'', insertCommitted rejects events db' = .ok (accepted', db'') ∧
      db''.outbox = db'.outbox ∧ db''.orders = db'.orders ∧ db''.stock = db'.stock := by
  obtain ⟨hrej, -, hrows⟩ := insertCommitted_ok h
  have hsame := insertIgnoreBatch_again (rowsAgree_iff.mpr hrows)
  have hok : ∃ r, insertCommitted rejects events db' = .ok r := by
    refine insertCommitted_isOk_iff.mpr ⟨hrej, ?_⟩
    rw [hsame]
    exact hrows
  obtain ⟨⟨accepted', db''⟩, hr⟩ := hok
  have hdb := (insertCommitted_ok hr).2.1
  exact ⟨accepted', db'', hr, by rw [hdb, hsame], by rw [hdb]; rfl, by rw [hdb]; rfl⟩

/-- **`insertCommitted` is an exact idempotent upsert or reject**, on rows that MySQL itself
takes. -/
theorem insertCommitted_exact (rejects : Reservation → Bool)
    (events : List SeckillOrderOutboxEvent) (db : Db) :
    ((∃ r, insertCommitted rejects events db = .ok r) ↔
      (∀ e ∈ events, rejects e.reservation = false) ∧
        RowsAgree events (insertIgnoreBatch events db).2) ∧
    (∀ accepted db', insertCommitted rejects events db = .ok (accepted, db') →
      transactional (insertCommitted rejects events db) db = db' ∧
      (∃ rows, Upserted events db rows accepted db') ∧
      ∃ accepted' db'', insertCommitted rejects events db' = .ok (accepted', db'') ∧
        db''.outbox = db'.outbox ∧ db''.orders = db'.orders ∧ db''.stock = db'.stock) ∧
    ∀ e, insertCommitted rejects events db = .error e →
      transactional (insertCommitted rejects events db) db = db := by
  refine ⟨?_, fun accepted db' h => ?_, fun e h => by rw [h]; rfl⟩
  · rw [insertCommitted_isOk_iff, rowsAgree_iff]
  · exact ⟨by rw [h]; rfl, upserted_of_ok h, insertCommitted_again h⟩

end Hmdp.Handoff
