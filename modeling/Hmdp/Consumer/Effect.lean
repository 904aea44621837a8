import Hmdp.Consumer.Idempotence

/-!
# The exact effect of `createOrders`

`Persisted` follows the code: voucher by voucher, and then the completion by one of two keys. Here
the same transaction is compared with what it is for, in terms of the messages and the tables
alone (`CreatesOrders`): one row for each distinct order id that had none, each voucher's stock
reduced by its own new rows, and the backlog rows of the batch's orders completed.

* `collect_outboxIds_nodup`, `outboxIds_cover`: when the two maps of the loop have one size, every
  order of the batch has its outbox id.
* **`completeOutbox_rows`**: so both branches complete the same rows, those of the batch's orders.
* **`createOrders_effect`**: the transaction has exactly this effect, or none.
-/

namespace Hmdp.Consumer

open Hmdp.Lib Hmdp.Model

variable {tx : Transaction} {db db' : Db} {messages : List SeckillOrderMessage}

/-! ## What the transaction is for -/

/-- An outbox id in a message is that of the row of the message's own order. -/
def OwnOutboxIds (db : Db) (messages : List SeckillOrderMessage) : Prop :=
  ∀ m ∈ messages, ∀ i o, m.outboxId = some i → m.orderId = some o →
    ∃ e ∈ db.outbox.rows, e.id = i ∧ e.orderId = o

/-- The order ids of a batch. -/
def orderIds (messages : List SeckillOrderMessage) : List OrderId :=
  messages.filterMap SeckillOrderMessage.orderId

/-- The outbox row of an order of the batch is completed if it is `PENDING` or `SENT`. -/
def completeRow (messages : List SeckillOrderMessage) (now : Time) (e : OutboxRow) : OutboxRow :=
  if e.orderId ∈ orderIds messages ∧ e.backlog then (OutboxUpdate.completed now).apply e else e

/-- The intended effect of a batch; `rows` are the new rows of `tb_voucher_order`. -/
structure CreatesOrders (tx : Transaction) (db : Db) (messages : List SeckillOrderMessage)
    (rows : List VoucherOrder) (db' : Db) : Prop where
  orders : db'.orders.rows = db.orders.rows ++ rows
  /-- one new row for each order id … -/
  nodup : (rows.map VoucherOrder.id).Nodup
  /-- … of the batch that had no row … -/
  ids : ∀ o, o ∈ rows.map VoucherOrder.id ↔ o ∈ orderIds messages ∧ db.hasOrder o = false
  /-- … with what a message of the order says. -/
  content : ∀ r ∈ rows, r.status = .unpaid ∧ ∃ m ∈ messages,
    m.orderId = some r.id ∧ m.voucherId = some r.voucherId ∧ m.userId = some r.userId
  stock : ∀ v, db'.stock v =
    (db.stock v).map (· - ((rows.countP fun r => r.voucherId = v : ℕ) : ℤ))
  /-- a voucher that sells has a stock, which covers its new rows -/
  covered : ∀ r ∈ rows, ∃ s, db'.stock r.voucherId = some s ∧ 0 ≤ s
  outbox : db'.outbox.rows = db.outbox.rows.map (completeRow messages tx.completeTime)
  outboxSeq : db'.outboxSeq = db.outboxSeq

/-- The stock of a voucher stays nonnegative. -/
theorem CreatesOrders.stock_nonneg {rows : List VoucherOrder}
    (h : CreatesOrders tx db messages rows db') {v : VoucherId} {s : ℤ} (hs : db.stock v = some s)
    (hle : 0 ≤ s) : ∃ t, db'.stock v = some t ∧ 0 ≤ t := by
  by_cases hv : ∃ r ∈ rows, r.voucherId = v
  · obtain ⟨r, hr, rfl⟩ := hv
    exact h.covered r hr
  · have hzero : (rows.countP fun r => r.voucherId = v) = 0 := by
      rw [List.countP_eq_zero]
      intro r hr hrv
      exact hv ⟨r, hr, by simpa using hrv⟩
    refine ⟨s, ?_, hle⟩
    rw [h.stock, hs, hzero]
    simp

/-! ## The two maps of the loop -/

theorem orderId_of_draft {m : SeckillOrderMessage} {o : OrderDraft} (h : m.draft = some o) :
    m.orderId = some o.id ∧ m.voucherId = some o.voucherId ∧ m.userId = some o.userId := by
  unfold SeckillOrderMessage.draft at h
  split at h
  · rename_i ho hv hu
    cases h
    exact ⟨ho, hv, hu⟩
  · exact absurd h (by simp)

/-- The order ids of a batch of complete messages are those of its distinct orders. -/
theorem mem_orderIds (h : ∀ m ∈ messages, m.draft.isSome) {o : OrderId} :
    o ∈ orderIds messages ↔ o ∈ (uniqueOrders messages).map OrderDraft.id := by
  rw [orderIds, List.mem_filterMap]
  constructor
  · rintro ⟨m, hm, ho⟩
    obtain ⟨d, hd⟩ := Option.isSome_iff_exists.mp (h m hm)
    obtain ⟨p, hp, hid⟩ := exists_uniqueOrder (mem_drafts.mpr ⟨m, hm, hd⟩)
    rw [(orderId_of_draft hd).1] at ho
    exact List.mem_map.mpr ⟨p, hp, hid.trans (Option.some.inj ho)⟩
  · intro ho
    obtain ⟨p, hp, rfl⟩ := List.mem_map.mp ho
    obtain ⟨m, hm, hd⟩ := mem_drafts.mp (mem_drafts_of_mem_uniqueOrders hp)
    exact ⟨m, hm, (orderId_of_draft hd).1⟩

/-- `putIfAbsent` keeps the keys of the outbox ids distinct. -/
theorem collect_outboxIds_nodup {c acc : Collected} {ms : List SeckillOrderMessage}
    (hn : (acc.outboxIdsByOrder.map Prod.fst).Nodup) (h : collect acc ms = .ok c) :
    (c.outboxIdsByOrder.map Prod.fst).Nodup := by
  induction ms generalizing acc with
  | nil =>
    cases h
    exact hn
  | cons m ms ih =>
    have hput : ∀ o : OrderDraft, ((acc.put o m.outboxId).outboxIdsByOrder.map Prod.fst).Nodup := by
      intro o
      unfold Collected.put
      cases m.outboxId with
      | none => exact hn
      | some i => exact nodup_insertIgnore hn
    unfold collect at h
    split at h
    · exact absurd h (by simp)
    · split at h
      · exact ih (hput _) h
      · split at h
        · exact absurd h (by simp)
        · exact ih (hput _) h

/-- **Maps of one size have the same keys**: every order of the batch has its outbox id. -/
theorem outboxIds_cover {c : Collected} (hc : collect ⟨[], []⟩ messages = .ok c)
    (hsize : c.outboxIdsByOrder.length = c.uniqueOrders.length) {o : OrderId}
    (ho : o ∈ orderIds messages) : ∃ i, (o, i) ∈ c.outboxIdsByOrder := by
  have hcomplete := (collect_ok_iff.mp ⟨c, hc⟩).complete
  have hunique := collect_uniqueOrders hc
  have hsub : c.outboxIdsByOrder.map Prod.fst ⊆ c.uniqueOrders.map OrderDraft.id := by
    intro k hk
    obtain ⟨p, hp, rfl⟩ := List.mem_map.mp hk
    rcases collect_outboxIds hc p hp with hp | ⟨m, hm, hmo, -⟩
    · exact absurd hp (by simp)
    · rw [hunique, ← mem_orderIds hcomplete]
      exact List.mem_filterMap.mpr ⟨m, hm, hmo⟩
  have hperm : (c.outboxIdsByOrder.map Prod.fst).Perm (c.uniqueOrders.map OrderDraft.id) :=
    ((@collect_outboxIds_nodup c ⟨[], []⟩ messages List.nodup_nil hc).subperm
      hsub).perm_of_length_le (by simp [hsize])
  rw [mem_orderIds hcomplete, ← hunique, ← hperm.mem_iff] at ho
  obtain ⟨⟨k, i⟩, hp, rfl⟩ := List.mem_map.mp ho
  exact ⟨i, hp⟩

/-! ## The completion -/

/-- **Both branches complete the rows of the batch's orders.** -/
theorem completeOutbox_rows {c : Collected} (hc : collect ⟨[], []⟩ messages = .ok c)
    (hown : OwnOutboxIds db messages) (hdb : db'.outbox = db.outbox) :
    (completeOutbox tx c db').outbox.rows =
      db.outbox.rows.map (completeRow messages tx.completeTime) := by
  have hcomplete := (collect_ok_iff.mp ⟨c, hc⟩).complete
  have hunique := collect_uniqueOrders hc
  unfold completeOutbox
  split
  · rename_i hsize
    show db'.outbox.rows.map _ = _
    rw [hdb]
    refine List.map_congr_left fun e he => ?_
    -- an outbox id of the map is that of the row of its order
    have hrow : ∀ p ∈ c.outboxIdsByOrder, ∃ f ∈ db.outbox.rows, f.id = p.2 ∧ f.orderId = p.1 := by
      intro p hp
      rcases collect_outboxIds hc p hp with hp | ⟨m, hm, hmo, hmi⟩
      · exact absurd hp (by simp)
      · exact hown m hm p.2 p.1 hmi hmo
    have hsel : e.id ∈ c.outboxIdsByOrder.map Prod.snd ↔ e.orderId ∈ orderIds messages := by
      constructor
      · intro hid
        obtain ⟨p, hp, hpe⟩ := List.mem_map.mp hid
        obtain ⟨f, hf, hfi, hfo⟩ := hrow p hp
        have hef : e = f := db.outbox.eq_of_clash he hf
          (outboxKeys_clash.mpr (Or.inl (hpe.symm.trans hfi.symm)))
        rcases collect_outboxIds hc p hp with hp | ⟨m, hm, hmo, -⟩
        · exact absurd hp (by simp)
        · rw [hef, hfo]
          exact List.mem_filterMap.mpr ⟨m, hm, hmo⟩
      · intro ho
        obtain ⟨i, hp⟩ := outboxIds_cover hc hsize ho
        obtain ⟨f, hf, hfi, hfo⟩ := hrow _ hp
        have hef : e = f := db.outbox.eq_of_clash he hf
          (outboxKeys_clash.mpr (Or.inr (Or.inr hfo.symm)))
        exact List.mem_map.mpr ⟨_, hp, by rw [hef, hfi]⟩
    simp only [completeRow, Bool.and_eq_true, decide_eq_true_eq, List.mem_insertionSort, hsel]
  · show db'.outbox.rows.map _ = _
    rw [hdb]
    refine List.map_congr_left fun e _ => ?_
    simp only [completeRow, Bool.and_eq_true, decide_eq_true_eq, List.mem_insertionSort, hunique,
      mem_orderIds hcomplete]

/-! ## The rows and the stock -/

/-- The new rows of all groups are those of the fresh orders of the batch. -/
theorem newOrders_perm {orders : List OrderDraft}
    (h : Persisted tx db orders (voucherIds orders) db')
    (hids : (orders.map OrderDraft.id).Nodup) :
    ((voucherIds orders).flatMap (groupRows tx db orders)).Perm
      ((freshOrders db orders).map fun o => o.row (tx.insertTime o.voucherId)) := by
  have hnodup := db'.orders.nodup_key
  rw [h.rows, List.map_append] at hnodup
  have hfresh : (((freshOrders db orders).map fun o => o.row (tx.insertTime o.voucherId)).map
      VoucherOrder.id).Nodup := by
    rw [List.map_map]
    exact (List.filter_sublist.map _).nodup hids
  refine (List.perm_ext_iff_of_nodup (List.Nodup.of_map _ (List.nodup_append.mp hnodup).2.1)
    (List.Nodup.of_map _ hfresh)).mpr fun r => ?_
  rw [List.mem_flatMap, List.mem_map]
  constructor
  · rintro ⟨v, -, hr⟩
    obtain ⟨o, ho, rfl, hf, rfl⟩ := mem_groupRows.mp hr
    exact ⟨o, mem_freshOrders.mpr ⟨ho, hf⟩, rfl⟩
  · rintro ⟨o, ho, rfl⟩
    obtain ⟨ho, hf⟩ := mem_freshOrders.mp ho
    exact ⟨o.voucherId, mem_voucherIds.mpr ⟨o, ho, rfl⟩, mem_groupRows.mpr ⟨o, ho, rfl, hf, rfl⟩⟩

/-- The rows a normally returning batch appends: unpaid rows of returned orders, with ids that no
row had. -/
theorem createOrders_rows {os : List OrderDraft}
    (h : createOrders tx messages db = .ok (os, db')) :
    ∃ rows, db'.orders.rows = db.orders.rows ++ rows ∧
      ∀ r ∈ rows, r.status = .unpaid ∧ db.hasOrder r.id = false ∧ ∃ o ∈ os, o.id = r.id := by
  obtain ⟨c, d, -, -, hp, hdb⟩ := createOrders_ok h
  have horders : db'.orders = d.orders := by
    rcases hdb with ⟨-, rfl⟩ | rfl
    · rfl
    · obtain ⟨sel, hs, -⟩ := completeOutbox_eq tx c d
      rw [hs, updateOutbox_orders]
  refine ⟨_, by rw [horders, hp.rows], fun r hr => ?_⟩
  obtain ⟨o, ho, rfl⟩ := List.mem_map.mp
    ((newOrders_perm hp (uniqueOrders_nodup messages)).mem_iff.mp hr)
  obtain ⟨ho, hfresh⟩ := mem_freshOrders.mp ho
  rw [createOrders_returns h]
  exact ⟨rfl, hfresh, o, ho, rfl⟩

/-- The new rows of a voucher, counted. -/
theorem countP_newOrders (orders : List OrderDraft) (v : VoucherId) :
    (((freshOrders db orders).map fun o => o.row (tx.insertTime o.voucherId)).countP
      fun r => r.voucherId = v) = (freshOrders db (groupOf orders v)).length := by
  rw [List.countP_map, List.countP_eq_length_filter, freshOrders_groupOf]
  rfl

/-- A batch that is accepted has stock for its fresh orders. -/
theorem stock_covers {os : List OrderDraft} (h : createOrders tx messages db = .ok (os, db'))
    {o : OrderDraft} (ho : o ∈ freshOrders db (uniqueOrders messages)) :
    ∃ s, db'.stock o.voucherId = some s ∧ 0 ≤ s := by
  have hok : Accepted tx db messages := createOrders_ok_iff.mp ⟨_, h⟩
  have hne : freshOrders db (groupOf (uniqueOrders messages) o.voucherId) ≠ [] := by
    rw [freshOrders_groupOf]
    exact List.ne_nil_of_mem (mem_groupOf.mpr ⟨ho, rfl⟩)
  obtain ⟨s, hs, hle⟩ := (hok.groupOk o.voucherId).stocked hne
  exact ⟨_, by rw [createOrders_stock h, hs]; rfl, Int.sub_nonneg_of_le hle⟩

theorem createsOrders_of_ok {os : List OrderDraft}
    (h : createOrders tx messages db = .ok (os, db')) (hown : OwnOutboxIds db messages) :
    ∃ rows, CreatesOrders tx db messages rows db' := by
  obtain ⟨c, d, hc, -, hp, hdb⟩ := createOrders_ok h
  have hcomplete := (collect_ok_iff.mp ⟨c, hc⟩).complete
  have hperm := newOrders_perm hp (uniqueOrders_nodup messages)
  have hrest : db'.orders = d.orders ∧ db'.outboxSeq = d.outboxSeq ∧
      db'.outbox.rows = db.outbox.rows.map (completeRow messages tx.completeTime) := by
    rcases hdb with ⟨rfl, rfl⟩ | rfl
    · refine ⟨rfl, rfl, ?_⟩
      rw [hp.outbox]
      exact (List.map_id' db.outbox.rows).symm
    · obtain ⟨sel, hs, -⟩ := completeOutbox_eq tx c d
      refine ⟨by rw [hs, updateOutbox_orders], by rw [hs]; rfl, ?_⟩
      exact completeOutbox_rows hc hown hp.outbox
  obtain ⟨horders, hseq, houtbox⟩ := hrest
  have hnodup := db'.orders.nodup_key
  rw [horders, hp.rows, List.map_append] at hnodup
  refine ⟨_, by rw [horders, hp.rows], (List.nodup_append.mp hnodup).2.1, ?_, ?_, ?_, ?_, houtbox,
    hseq.trans hp.outboxSeq⟩
  · intro o
    rw [(hperm.map _).mem_iff, mem_orderIds hcomplete, List.map_map, List.mem_map, List.mem_map]
    constructor
    · rintro ⟨p, hp, rfl⟩
      obtain ⟨hp, hf⟩ := mem_freshOrders.mp hp
      exact ⟨⟨p, hp, rfl⟩, hf⟩
    · rintro ⟨⟨p, hp, rfl⟩, hf⟩
      exact ⟨p, mem_freshOrders.mpr ⟨hp, hf⟩, rfl⟩
  · intro r hr
    obtain ⟨o, ho, rfl⟩ := List.mem_map.mp (hperm.mem_iff.mp hr)
    obtain ⟨m, hm, hd⟩ := mem_drafts.mp
      (mem_drafts_of_mem_uniqueOrders (mem_freshOrders.mp ho).1)
    exact ⟨rfl, m, hm, orderId_of_draft hd⟩
  · intro v
    rw [hperm.countP_eq, countP_newOrders, createOrders_stock h]
  · intro r hr
    obtain ⟨o, ho, rfl⟩ := List.mem_map.mp (hperm.mem_iff.mp hr)
    exact stock_covers h ho

/-- **The transaction has its intended effect or none.** -/
theorem createOrders_effect (tx : Transaction) (db : Db) (messages : List SeckillOrderMessage)
    (hown : OwnOutboxIds db messages) :
    (∀ r, createOrders tx messages db = .ok r →
      transactional (createOrders tx messages db) db = r.2 ∧
        (∃ rows, CreatesOrders tx db messages rows r.2) ∧
        ∀ v s, db.stock v = some s → 0 ≤ s → ∃ t, r.2.stock v = some t ∧ 0 ≤ t) ∧
      ∀ e, createOrders tx messages db = .error e →
        transactional (createOrders tx messages db) db = db := by
  refine ⟨fun r h => ?_, fun e h => by rw [h]; rfl⟩
  obtain ⟨rows, hrows⟩ := createsOrders_of_ok h hown
  exact ⟨by rw [h]; rfl, ⟨rows, hrows⟩, fun v s hs hle => hrows.stock_nonneg hs hle⟩

/-- Two units of voucher 7 and one of voucher 8, and two orders waiting in the outbox. -/
def waiting : Db :=
  (insertIgnoreBatch
    [⟨"1".toList, 1, 7, 5, false, .pending, 0, 0, none, none, none, 0, 0, none, none⟩,
      ⟨"2".toList, 2, 8, 5, true, .sent, 0, 0, none, none, none, 0, 0, none, none⟩]
    { Db.empty with stock := fun v => if v = 7 then some 2 else if v = 8 then some 1 else none }).2

/-- Order 1 twice, once without its outbox id, and order 2. -/
def delivered : List SeckillOrderMessage :=
  [⟨none, none, some 1, some 7, some 5, some false, 0⟩,
    ⟨none, some 2, some 2, some 8, some 5, some true, 0⟩,
    ⟨none, some 1, some 1, some 7, some 5, some false, 0⟩]

theorem createOrders_effect_delivered :
    ∃ r, createOrders ⟨NewestFirst.first, fun _ => 0, 0⟩ delivered waiting = .ok r ∧
      ∃ rows, CreatesOrders ⟨NewestFirst.first, fun _ => 0, 0⟩ waiting delivered rows r.2 := by
  have hown : OwnOutboxIds waiting delivered := by
    intro m hm i o hi ho
    have hm' : m = delivered[0] ∨ m = delivered[1] ∨ m = delivered[2] := by
      simpa [delivered] using hm
    rcases hm' with rfl | rfl | rfl
    · exact absurd hi (by simp [delivered])
    · cases hi
      cases ho
      exact ⟨_, List.mem_of_getElem? (i := 1) (by rfl), rfl, rfl⟩
    · cases hi
      cases ho
      exact ⟨_, List.mem_of_getElem? (i := 0) (by rfl), rfl, rfl⟩
  have hok : (createOrders ⟨NewestFirst.first, fun _ => 0, 0⟩ delivered waiting).toOption.isSome =
      true := by decide +kernel
  cases h : createOrders ⟨NewestFirst.first, fun _ => 0, 0⟩ delivered waiting with
  | error e =>
    rw [h] at hok
    exact absurd hok (by simp [Except.toOption])
  | ok r => exact ⟨r, rfl, ((createOrders_effect _ _ _ hown).1 r h).2.1⟩

end Hmdp.Consumer
