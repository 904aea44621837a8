import Hmdp.Lib.Table
import Hmdp.Model.Codec
import Mathlib.Data.List.Dedup

/-!
# MySQL: the tables of a seckill and the mapper statements

`tb_seckill_voucher.stock`, `tb_voucher_order` and `tb_seckill_order_outbox`, and every mapper
statement the modelled services issue, as a function from the committed state to the statement's
result. An `UPDATE` reports the rows it matched, an `INSERT IGNORE` those it inserted. After the
migrations the only unique key of `tb_voucher_order` is its id (V4 drops `uk_user_voucher`); the
outbox has its `AUTO_INCREMENT` id, `event_id` and `order_id`.

`ORDER BY create_time DESC LIMIT 1` leaves open which of several newest rows is returned, so the
statements that use it take the choice as an argument (`NewestFirst`).

The lemmas say of each statement which rows it adds or rewrites and that the other tables stay;
`OutboxUpdate` is the one shape of all outbox updates, none of which touches what identifies an
event.
-/

namespace Hmdp.Model

open Hmdp.Lib

/-! ## The tables -/

/-- The primary key of `tb_voucher_order`. -/
abbrev orderKeys : Keys VoucherOrder := Keys.on VoucherOrder.id

/-- The primary key of `tb_seckill_order_outbox` and its two unique indexes. -/
abbrev outboxKeys : Keys OutboxRow :=
  ((Keys.on OutboxRow.id).or (Keys.on fun e => e.eventId)).or (Keys.on fun e => e.orderId)

/-- The committed rows; `outboxSeq` is the next `AUTO_INCREMENT` value. -/
structure Db where
  stock : VoucherId → Option ℤ
  orders : Table orderKeys
  outbox : Table outboxKeys
  outboxSeq : ℕ
  outbox_lt : ∀ e ∈ outbox.rows, e.id < outboxSeq

/-- `@Transactional(rollbackFor = Exception.class)`: the database after the call. -/
def transactional {ε α : Type*} (result : Except ε (α × Db)) (db : Db) : Db :=
  match result with
  | .ok r => r.2
  | .error _ => db

/-- All tables empty. -/
def Db.empty : Db := ⟨fun _ => none, Table.empty, Table.empty, 1, fun e h => absurd h (by simp)⟩

/-- An order row with the id exists. -/
def Db.hasOrder (db : Db) (o : OrderId) : Bool := db.orders.rows.any fun r => decide (r.id = o)

theorem Db.hasOrder_iff {db : Db} {o : OrderId} :
    db.hasOrder o = true ↔ ∃ r ∈ db.orders.rows, r.id = o := by
  simp [Db.hasOrder]

theorem Db.not_hasOrder_iff {db : Db} {o : OrderId} :
    db.hasOrder o = false ↔ ∀ r ∈ db.orders.rows, r.id ≠ o := by
  simp [Db.hasOrder]

/-- Two order rows with one id are the same row. -/
theorem Db.order_unique (db : Db) {r s : VoucherOrder} (hr : r ∈ db.orders.rows)
    (hs : s ∈ db.orders.rows) (h : r.id = s.id) : r = s :=
  List.inj_on_of_nodup_map db.orders.nodup_key hr hs h

theorem outboxKeys_clash {a b : OutboxRow} :
    outboxKeys.clash a b = true ↔ a.id = b.id ∨ a.eventId = b.eventId ∨ a.orderId = b.orderId := by
  simp [outboxKeys, Keys.or, Keys.on, sameKey, or_assoc]

theorem Db.outbox_nodup (db : Db) : (db.outbox.rows.map fun e => e.orderId).Nodup := by
  refine List.pairwise_map.mpr (db.outbox.unique.imp fun {a b} h he => ?_)
  rw [outboxKeys_clash.mpr (Or.inr (Or.inr he))] at h
  exact absurd h (by simp)

/-! ## `tb_voucher_order` -/

/-- Which row `ORDER BY create_time DESC LIMIT 1` returns. -/
structure NewestFirst where
  pick : List VoucherOrder → Option VoucherOrder
  mem : ∀ {l r}, pick l = some r → r ∈ l
  newest : ∀ {l r}, pick l = some r → ∀ s ∈ l, s.createTime ≤ r.createTime
  some_of_ne_nil : ∀ {l}, l ≠ [] → (pick l).isSome

/-- The first of the newest rows in table order. -/
def newestRow : List VoucherOrder → Option VoucherOrder
  | [] => none
  | r :: rs =>
    match newestRow rs with
    | none => some r
    | some s => if s.createTime ≤ r.createTime then some r else some s

theorem newestRow_eq_none {l : List VoucherOrder} : newestRow l = none ↔ l = [] := by
  cases l with
  | nil => exact ⟨fun _ => rfl, fun _ => rfl⟩
  | cons r rs =>
    refine ⟨fun h => ?_, fun h => absurd h (by simp)⟩
    unfold newestRow at h
    split at h
    · exact absurd h (by simp)
    · split at h <;> exact absurd h (by simp)

theorem newestRow_some {l : List VoucherOrder} {r : VoucherOrder} (h : newestRow l = some r) :
    r ∈ l ∧ ∀ s ∈ l, s.createTime ≤ r.createTime := by
  induction l generalizing r with
  | nil => exact absurd h (by simp [newestRow])
  | cons x xs ih =>
    unfold newestRow at h
    split at h
    · rename_i hnone
      cases h
      rw [newestRow_eq_none.mp hnone]
      simp
    · rename_i y hy
      obtain ⟨hmem, hle⟩ := ih hy
      split at h
      · rename_i hyx
        cases h
        refine ⟨List.mem_cons_self, fun s hs => ?_⟩
        rcases List.mem_cons.mp hs with rfl | hs
        · exact Int.le_refl _
        · exact Int.le_trans (hle s hs) hyx
      · rename_i hyx
        cases h
        refine ⟨List.mem_cons_of_mem x hmem, fun s hs => ?_⟩
        rcases List.mem_cons.mp hs with rfl | hs
        · exact Int.le_of_lt (Int.not_le.mp hyx)
        · exact hle s hs

/-- The choice of the first newest row. -/
def NewestFirst.first : NewestFirst where
  pick := newestRow
  mem h := (newestRow_some h).1
  newest h := (newestRow_some h).2
  some_of_ne_nil {l} h := by
    rw [Option.isSome_iff_ne_none, ne_eq, newestRow_eq_none]
    exact h

/-- `batchInsertIgnore`, at the statement's time. -/
def batchInsertIgnore (now : Time) (orders : List OrderDraft) (db : Db) : ℕ × Db :=
  let inserted := db.orders.insertIgnore (orders.map (OrderDraft.row now))
  (inserted.1, { db with orders := inserted.2 })

/-- The rows of `(user, voucher)` with `status <> 4`. -/
def liveOrders (rows : List VoucherOrder) (u : UserId) (v : VoucherId) : List VoucherOrder :=
  rows.filter fun r => decide (r.userId = u ∧ r.voucherId = v) && r.live

/-- `selectActiveOrder`. -/
def selectActiveOrder (pick : NewestFirst) (u : UserId) (v : VoucherId) (db : Db) :
    Option VoucherOrder :=
  pick.pick (liveOrders db.orders.rows u v)

/-- `selectOrderId`. -/
def selectOrderId (pick : NewestFirst) (u : UserId) (v : VoucherId) (rows : List VoucherOrder) :
    Option OrderId :=
  (pick.pick (liveOrders rows u v)).map VoucherOrder.id

/-- `cancelActiveOrder`. -/
def cancelActiveOrder (orderId : OrderId) (userId : UserId) (db : Db) : ℕ × Db :=
  let updated := db.orders.update
    (fun r => decide (r.id = orderId ∧ r.userId = userId ∧
      (r.status = .unpaid ∨ r.status = .paid)))
    (fun r => { r with status := .cancelled }) (Keys.on_congr fun _ => rfl)
  (updated.1, { db with orders := updated.2 })

/-- `findActiveUserIds`. -/
def findActiveUserIds (v : VoucherId) (db : Db) : List UserId :=
  ((db.orders.rows.filter fun r => decide (r.voucherId = v) && r.live).map
    VoucherOrder.userId).dedup

/-- `selectById`. -/
def selectById (o : OrderId) (db : Db) : Option VoucherOrder :=
  db.orders.rows.find? fun r => decide (r.id = o)

theorem mem_liveOrders {rows : List VoucherOrder} {u : UserId} {v : VoucherId} {r : VoucherOrder} :
    r ∈ liveOrders rows u v ↔
      r ∈ rows ∧ r.userId = u ∧ r.voucherId = v ∧ r.status ≠ .cancelled := by
  simp only [liveOrders, List.mem_filter, VoucherOrder.live, Bool.and_eq_true, decide_eq_true_eq,
    and_assoc]

theorem mem_findActiveUserIds {db : Db} {u : UserId} {v : VoucherId} :
    u ∈ findActiveUserIds v db ↔
      ∃ r ∈ db.orders.rows, r.voucherId = v ∧ r.status ≠ .cancelled ∧ r.userId = u := by
  simp only [findActiveUserIds, List.mem_dedup, List.mem_map, List.mem_filter, VoucherOrder.live,
    Bool.and_eq_true, decide_eq_true_eq, and_assoc]

theorem selectById_isSome {o : OrderId} {db : Db} :
    (selectById o db).isSome = db.hasOrder o := by
  rw [selectById, List.isSome_find?]
  rfl

/-- What the cancellation does to a row. -/
def cancelRow (orderId : OrderId) (userId : UserId) (r : VoucherOrder) : VoucherOrder :=
  if r.id = orderId ∧ r.userId = userId ∧ (r.status = .unpaid ∨ r.status = .paid) then
    { r with status := .cancelled }
  else r

theorem cancelRow_ids (orderId : OrderId) (userId : UserId) (r : VoucherOrder) :
    (cancelRow orderId userId r).id = r.id ∧ (cancelRow orderId userId r).userId = r.userId ∧
      (cancelRow orderId userId r).voucherId = r.voucherId := by
  unfold cancelRow
  split
  · exact ⟨rfl, rfl, rfl⟩
  · exact ⟨rfl, rfl, rfl⟩

theorem cancelActiveOrder_rows (orderId : OrderId) (userId : UserId) (db : Db) :
    (cancelActiveOrder orderId userId db).2.orders.rows =
      db.orders.rows.map (cancelRow orderId userId) := by
  show db.orders.rows.map _ = _
  refine List.map_congr_left fun r _ => ?_
  simp only [cancelRow, decide_eq_true_eq]

/-- A conditional cancellation that matches a row found it cancellable. -/
theorem exists_of_cancelActiveOrder {orderId : OrderId} {userId : UserId} {db : Db}
    (h : (cancelActiveOrder orderId userId db).1 ≠ 0) :
    ∃ r ∈ db.orders.rows, r.id = orderId ∧ r.userId = userId ∧
      (r.status = .unpaid ∨ r.status = .paid) := by
  change (db.orders.rows.filter _).length ≠ 0 at h
  obtain ⟨r, hr⟩ := List.exists_mem_of_length_pos (Nat.pos_of_ne_zero h)
  obtain ⟨hr, hsel⟩ := List.mem_filter.mp hr
  exact ⟨r, hr, by simpa using hsel⟩

/-! ## `tb_seckill_voucher` -/

/-- `decrementStock`. -/
def decrementStock (v : VoucherId) (amount : ℕ) (db : Db) : ℕ × Db :=
  match db.stock v with
  | none => (0, db)
  | some s =>
    if (amount : ℤ) ≤ s then
      (1, { db with stock := Function.update db.stock v (some (s - amount)) })
    else (0, db)

/-- `adjustStock`. -/
def adjustStock (v : VoucherId) (changeStock : ℤ) (db : Db) : ℕ × Db :=
  match db.stock v with
  | none => (0, db)
  | some s =>
    if 0 ≤ s + changeStock then
      (1, { db with stock := Function.update db.stock v (some (s + changeStock)) })
    else (0, db)

/-- **`decrementStock` updates one row iff the stock covers the amount.** -/
theorem decrementStock_cases (v : VoucherId) (amount : ℕ) (db : Db) :
    (∃ s, db.stock v = some s ∧ (amount : ℤ) ≤ s ∧ decrementStock v amount db =
        (1, { db with stock := Function.update db.stock v (some (s - amount)) })) ∨
      ((∀ s, db.stock v = some s → s < amount) ∧ decrementStock v amount db = (0, db)) := by
  unfold decrementStock
  cases h : db.stock v with
  | none => exact Or.inr ⟨fun s hs => absurd hs (by simp), rfl⟩
  | some s =>
    by_cases hs : (amount : ℤ) ≤ s
    · exact Or.inl ⟨s, rfl, hs, by simp [hs]⟩
    · refine Or.inr ⟨fun t ht => ?_, by simp [hs]⟩
      cases ht
      omega

theorem adjustStock_cases (v : VoucherId) (changeStock : ℤ) (db : Db) :
    (∃ s, db.stock v = some s ∧ 0 ≤ s + changeStock ∧ adjustStock v changeStock db =
        (1, { db with stock := Function.update db.stock v (some (s + changeStock)) })) ∨
      ((∀ s, db.stock v = some s → s + changeStock < 0) ∧
        adjustStock v changeStock db = (0, db)) := by
  unfold adjustStock
  cases h : db.stock v with
  | none => exact Or.inr ⟨fun s hs => absurd hs (by simp), rfl⟩
  | some s =>
    by_cases hs : 0 ≤ s + changeStock
    · exact Or.inl ⟨s, rfl, hs, by simp [hs]⟩
    · refine Or.inr ⟨fun t ht => ?_, by simp [hs]⟩
      cases ht
      omega

/-! ## `tb_seckill_order_outbox` -/

/-- A rewrite of outbox rows that leaves what identifies the event. -/
structure OutboxUpdate where
  apply : OutboxRow → OutboxRow
  id_apply : ∀ e, (apply e).id = e.id
  eventId_apply : ∀ e, (apply e).eventId = e.eventId
  reservation_apply : ∀ e, (apply e).reservation = e.reservation

theorem OutboxUpdate.keepsKeys (f : OutboxUpdate) (a b : OutboxRow) :
    outboxKeys.clash (f.apply a) b = outboxKeys.clash a b := by
  have ho : (f.apply a).orderId = a.orderId :=
    congrArg Reservation.orderId (f.reservation_apply a)
  rw [Bool.eq_iff_iff, outboxKeys_clash, outboxKeys_clash, f.id_apply, f.eventId_apply, ho]

/-- `UPDATE tb_seckill_order_outbox SET … WHERE sel`. -/
def updateOutbox (sel : OutboxRow → Bool) (f : OutboxUpdate) (db : Db) : ℕ × Db :=
  let updated := db.outbox.update sel f.apply f.keepsKeys
  (updated.1,
    { db with
      outbox := updated.2
      outbox_lt := fun e he => by
        obtain ⟨r, hr, rfl⟩ := Table.mem_update.mp he
        split
        · rw [f.id_apply]
          exact db.outbox_lt r hr
        · exact db.outbox_lt r hr })

/-- `status IN ('PENDING', 'SENT')`. -/
def OutboxRow.backlog (e : OutboxRow) : Bool := decide (e.status = .pending ∨ e.status = .sent)

/-- The claimable rows of `findDispatchable` and `claimRelayBatch`: due, and under no lease. -/
def OutboxRow.dispatchable (now : Time) (e : OutboxRow) : Bool :=
  e.backlog && decide (e.nextRetryTime ≤ now) &&
    match e.relayLeaseUntil with
    | none => true
    | some t => decide (t < now)

/-- `claimRelayBatch`. -/
def claimRelayBatch (ids : List ℕ) (owner : Text) (leaseUntil now : Time) (db : Db) : ℕ × Db :=
  updateOutbox (fun e => decide (e.id ∈ ids) && e.dispatchable now)
    ⟨fun e => { e with
      relayOwner := some owner, relayLeaseUntil := some leaseUntil, updatedTime := now },
      fun _ => rfl, fun _ => rfl, fun _ => rfl⟩ db

/-- `markSentBatch`. -/
def markSentBatch (ids : List ℕ) (owner : Text) (nextCheckTime now : Time) (db : Db) : ℕ × Db :=
  updateOutbox
    (fun e => decide (e.relayOwner = some owner) && decide (e.id ∈ ids) && e.backlog)
    ⟨fun e => { e with
      status := .sent, sentTime := some now, nextRetryTime := nextCheckTime, updatedTime := now,
      lastError := none, relayOwner := none, relayLeaseUntil := none },
      fun _ => rfl, fun _ => rfl, fun _ => rfl⟩ db

/-- `scheduleRetryBatch`. -/
def scheduleRetryBatch (ids : List ℕ) (owner : Text) (nextRetryTime : Time) (lastError : Text)
    (now : Time) (db : Db) : ℕ × Db :=
  updateOutbox
    (fun e => decide (e.relayOwner = some owner) && decide (e.id ∈ ids) && e.backlog)
    ⟨fun e => { e with
      retryCount := e.retryCount + 1, nextRetryTime := nextRetryTime,
      lastError := some lastError, updatedTime := now, relayOwner := none,
      relayLeaseUntil := none },
      fun _ => rfl, fun _ => rfl, fun _ => rfl⟩ db

/-- The columns `markCompleted` and its two batch forms set. -/
def OutboxUpdate.completed (now : Time) : OutboxUpdate where
  apply e := { e with
    status := .completed, completedTime := some (e.completedTime.getD now), updatedTime := now,
    lastError := none, relayOwner := none, relayLeaseUntil := none }
  id_apply _ := rfl
  eventId_apply _ := rfl
  reservation_apply _ := rfl

/-- `markCompleted`. -/
def markCompleted (orderId : OrderId) (now : Time) (db : Db) : ℕ × Db :=
  updateOutbox (fun e => decide (e.orderId = orderId) && e.backlog) (.completed now) db

/-- `markCompletedBatch`. -/
def markCompletedBatch (orderIds : List OrderId) (now : Time) (db : Db) : ℕ × Db :=
  updateOutbox (fun e => decide (e.orderId ∈ orderIds) && e.backlog) (.completed now) db

/-- `markCompletedBatchByIds`. -/
def markCompletedBatchByIds (ids : List ℕ) (now : Time) (db : Db) : ℕ × Db :=
  updateOutbox (fun e => decide (e.id ∈ ids) && e.backlog) (.completed now) db

/-- `markManualReview`. -/
def markManualReview (orderId : OrderId) (reason : Text) (now : Time) (db : Db) : ℕ × Db :=
  updateOutbox (fun e => decide (e.orderId = orderId) && decide (e.status ≠ .completed))
    ⟨fun e => { e with
      status := .manualReview, updatedTime := now, lastError := some reason,
      relayOwner := none, relayLeaseUntil := none },
      fun _ => rfl, fun _ => rfl, fun _ => rfl⟩ db

/-- `requeueAccepted`. -/
def requeueAccepted (orderId : OrderId) (nextRetryTime : Time) (reason : Text) (now : Time)
    (db : Db) : ℕ × Db :=
  updateOutbox (fun e => decide (e.orderId = orderId) && decide (e.status ≠ .completed))
    ⟨fun e => { e with
      status := .pending, retryCount := e.retryCount + 1, nextRetryTime := nextRetryTime,
      updatedTime := now, lastError := some reason, relayOwner := none,
      relayLeaseUntil := none },
      fun _ => rfl, fun _ => rfl, fun _ => rfl⟩ db

/-- The rows of a batch with their `AUTO_INCREMENT` ids, which are taken for all of them before
any is found to be a duplicate. -/
def numbered (seq : ℕ) : List SeckillOrderOutboxEvent → List OutboxRow
  | [] => []
  | e :: es => { e with id := seq, retryCount := 0 } :: numbered (seq + 1) es

theorem mem_numbered {es : List SeckillOrderOutboxEvent} {e : OutboxRow} :
    ∀ {seq : ℕ}, e ∈ numbered seq es → (seq ≤ e.id ∧ e.id < seq + es.length) ∧
      ∃ x ∈ es, e.reservation = x.reservation ∧ e.eventId = x.eventId ∧ e.status = x.status := by
  induction es with
  | nil => exact fun h => absurd h (by simp [numbered])
  | cons x es ih =>
    intro seq h
    rw [List.length_cons]
    rcases List.mem_cons.mp h with h | h
    · subst h
      exact ⟨⟨Nat.le_refl seq, Nat.lt_add_of_pos_right (Nat.succ_pos _)⟩, x, List.mem_cons_self,
        rfl, rfl, rfl⟩
    · obtain ⟨⟨h1, h2⟩, y, hy, he⟩ := ih h
      exact ⟨⟨by omega, by omega⟩, y, List.mem_cons_of_mem _ hy, he⟩

/-- The ids of a batch are distinct. -/
theorem numbered_id_injective {es : List SeckillOrderOutboxEvent} {a b : OutboxRow} :
    ∀ {seq : ℕ}, a ∈ numbered seq es → b ∈ numbered seq es → a.id = b.id → a = b := by
  induction es with
  | nil => exact fun h => absurd h (by simp [numbered])
  | cons x es ih =>
    intro seq ha hb hid
    rcases List.mem_cons.mp ha with ha' | ha' <;> rcases List.mem_cons.mp hb with hb' | hb'
    · rw [ha', hb']
    · have := (mem_numbered hb').1.1
      rw [ha'] at hid
      change seq = b.id at hid
      omega
    · have := (mem_numbered ha').1.1
      rw [hb'] at hid
      change a.id = seq at hid
      omega
    · exact ih ha' hb' hid

theorem length_numbered (seq : ℕ) (es : List SeckillOrderOutboxEvent) :
    (numbered seq es).length = es.length := by
  induction es generalizing seq with
  | nil => rfl
  | cons _ es ih => rw [numbered, List.length_cons, ih, List.length_cons]

/-- Every event of the batch is one of its numbered rows. -/
theorem exists_numbered {es : List SeckillOrderOutboxEvent} {x : SeckillOrderOutboxEvent} :
    ∀ {seq : ℕ}, x ∈ es →
      ∃ e ∈ numbered seq es, e.reservation = x.reservation ∧ e.eventId = x.eventId := by
  induction es with
  | nil => exact fun h => absurd h List.not_mem_nil
  | cons y es ih =>
    intro seq h
    rcases List.mem_cons.mp h with h | h
    · subst h
      exact ⟨{ x with id := seq, retryCount := 0 }, List.mem_cons_self, rfl, rfl⟩
    · obtain ⟨e, he, hx⟩ := ih h
      exact ⟨e, List.mem_cons_of_mem _ he, hx⟩

/-- `insertIgnoreBatch`. -/
def insertIgnoreBatch (events : List SeckillOrderOutboxEvent) (db : Db) : ℕ × Db :=
  let inserted := db.outbox.insertIgnore (numbered db.outboxSeq events)
  (inserted.1,
    { db with
      outbox := inserted.2
      outboxSeq := db.outboxSeq + events.length
      outbox_lt := fun e he => by
        rcases Table.mem_insertIgnore.mp he with he | he
        · have := db.outbox_lt e he
          omega
        · exact (mem_numbered (mem_rows_of_mem_newRows he)).1.2 })

/-- `findByOrderIds`. -/
def findByOrderIds (orderIds : List OrderId) (db : Db) : List OutboxRow :=
  db.outbox.rows.filter fun e => decide (e.orderId ∈ orderIds)

/-- `findByOrderId`. -/
def findByOrderId (orderId : OrderId) (db : Db) : Option OutboxRow :=
  db.outbox.rows.find? fun e => decide (e.orderId = orderId)

/-- `findUnpersistedEvents`. -/
def findUnpersistedEvents (v : VoucherId) (db : Db) : List OutboxRow :=
  db.outbox.rows.filter fun e =>
    decide (e.voucherId = v ∧ e.status ≠ .completed) && !db.hasOrder e.orderId

@[simp] theorem updateOutbox_orders (sel : OutboxRow → Bool) (f : OutboxUpdate) (db : Db) :
    (updateOutbox sel f db).2.orders = db.orders := rfl

@[simp] theorem updateOutbox_stock (sel : OutboxRow → Bool) (f : OutboxUpdate) (db : Db) :
    (updateOutbox sel f db).2.stock = db.stock := rfl

/-- The rows after an update. -/
theorem mem_updateOutbox {sel : OutboxRow → Bool} {f : OutboxUpdate} {db : Db} {e : OutboxRow} :
    e ∈ (updateOutbox sel f db).2.outbox.rows ↔
      ∃ r ∈ db.outbox.rows, (if sel r then f.apply r else r) = e :=
  @Table.mem_update _ _ db.outbox sel f.apply f.keepsKeys e

theorem mem_insertIgnoreBatch {events : List SeckillOrderOutboxEvent} {db : Db} {e : OutboxRow} :
    e ∈ (insertIgnoreBatch events db).2.outbox.rows ↔
      e ∈ db.outbox.rows ∨ e ∈ newRows outboxKeys.clash db.outbox.rows
        (numbered db.outboxSeq events) :=
  Table.mem_insertIgnore

end Hmdp.Model
