import Hmdp.Lib.Reservation
import Hmdp.Pipeline.Effect

/-!
# Stock conservation

The ledger of a voucher: the Redis stock is what is free, the outstanding order ids are held, and
the MySQL stock is the whole. Each step of the pipeline is one move of it: an accepted
`seckill.lua` call reserves, a consumer transaction settles the orders it adds, a committed
cancellation restocks, and everything else leaves it alone (`ledger_step`). So the balance of the
start is kept, whatever the relays, the deliveries and the crashes do in between, and the
consumer never finds too little stock.

* **`stock_conserved`**.
-/

namespace Hmdp.Pipeline

open Hmdp.Lib Hmdp.Model

variable {rejects : Reservation → Bool} {s t : State} {v : VoucherId}

/-! ## The ledger of a voucher -/

/-- `l` is the ledger of `v`. -/
structure HasLedger (v : VoucherId) (s : State) (l : Ledger OrderId) : Prop where
  free : s.redis.stock v = some l.free
  held : l.held = outstandingIds v s
  stock : s.db.stock v = some l.stock

/-- Which order ids are outstanding depends on the accepted orders and the order rows. -/
theorem outstandingIds_congr (hs : Coherent rejects s) (ht : Coherent rejects t)
    (hg : t.granted = s.granted) (ho : ∀ o, t.db.hasOrder o = s.db.hasOrder o) :
    outstandingIds v t = outstandingIds v s := by
  ext o
  rw [ht.mem_outstandingIds, hs.mem_outstandingIds, hg, ho]

theorem hasOrder_of_orders {db db' : Db} (h : db'.orders = db.orders) (o : OrderId) :
    db'.hasOrder o = db.hasOrder o := by
  rw [Db.hasOrder, Db.hasOrder, h]

theorem hasOrder_cancel {order : VoucherOrder} {db db' : Db}
    (h : cancelInTransaction order db = some db') (o : OrderId) :
    db'.hasOrder o = db.hasOrder o := by
  rw [Db.hasOrder, Db.hasOrder, (cancelInTransaction_some h).2.1, List.any_map]
  refine congrArg (List.any db.orders.rows) (funext fun r => ?_)
  rw [Function.comp_apply, (cancelRow_ids order.id order.userId r).1]

/-- An accepted order that is not issued yet has no row. -/
theorem Coherent.hasOrder_issued (h : Coherent rejects s) {o : OrderId}
    (ho : s.db.hasOrder o = true) : o ∈ s.issued := by
  obtain ⟨row, hrow, rfl⟩ := Db.hasOrder_iff.mp ho
  obtain ⟨r, hr, hid, -⟩ := h.orders row hrow
  rw [← hid]
  exact h.issued r (h.granted_of_inOutbox hr)

/-! ## Reserving -/

theorem outstandingIds_reserve {c : SeckillCall} (hs : Coherent rejects s)
    (ht : Coherent rejects t) (hfresh : c.orderId ∉ s.issued) (hdb : t.db = s.db)
    (hg : t.granted = c.reservation :: s.granted) :
    outstandingIds v t =
      if c.voucherId = v then insert c.orderId (outstandingIds v s) else outstandingIds v s := by
  ext o
  have hnone : s.db.hasOrder c.orderId = false := by
    by_contra hc
    exact hfresh (hs.hasOrder_issued (by simpa using hc))
  rw [ht.mem_outstandingIds, hg, hdb]
  split
  · rename_i hv
    rw [Finset.mem_insert, hs.mem_outstandingIds]
    constructor
    · rintro ⟨r, hr, hrv, hid, hn⟩
      rcases List.mem_cons.mp hr with rfl | hr
      · exact Or.inl hid.symm
      · exact Or.inr ⟨r, hr, hrv, hid, hn⟩
    · rintro (rfl | ⟨r, hr, hrv, hid, hn⟩)
      · exact ⟨c.reservation, List.mem_cons_self, hv, rfl, hnone⟩
      · exact ⟨r, List.mem_cons_of_mem _ hr, hrv, hid, hn⟩
  · rename_i hv
    rw [hs.mem_outstandingIds]
    constructor
    · rintro ⟨r, hr, hrv, hid, hn⟩
      rcases List.mem_cons.mp hr with rfl | hr
      · exact absurd hrv hv
      · exact ⟨r, hr, hrv, hid, hn⟩
    · rintro ⟨r, hr, hrv, hid, hn⟩
      exact ⟨r, List.mem_cons_of_mem _ hr, hrv, hid, hn⟩

theorem not_mem_outstandingIds (hs : Coherent rejects s) {o : OrderId} (ho : o ∉ s.issued) :
    o ∉ outstandingIds v s := by
  rw [hs.mem_outstandingIds]
  rintro ⟨r, hr, -, rfl, -⟩
  exact ho (hs.issued r hr)

/-! ## Settling -/

/-- The order ids the batch adds for `v`. -/
def settledIds (v : VoucherId) (messages : List SeckillOrderMessage) (db : Db) : Finset OrderId :=
  ((freshOrders db (groupOf (uniqueOrders messages) v)).map OrderDraft.id).toFinset

theorem card_settledIds (v : VoucherId) (messages : List SeckillOrderMessage) (db : Db) :
    (settledIds v messages db).card =
      (freshOrders db (groupOf (uniqueOrders messages) v)).length := by
  have hnodup : ((freshOrders db (groupOf (uniqueOrders messages) v)).map OrderDraft.id).Nodup :=
    (List.filter_sublist.map _).nodup (groupOf_nodup (uniqueOrders_nodup messages) v)
  rw [settledIds, List.toFinset_card_of_nodup hnodup, List.length_map]

theorem mem_settledIds {messages : List SeckillOrderMessage} {db : Db} {o : OrderId} :
    o ∈ settledIds v messages db ↔ ∃ d ∈ uniqueOrders messages,
      d.voucherId = v ∧ db.hasOrder d.id = false ∧ d.id = o := by
  simp only [settledIds, List.mem_toFinset, List.mem_map, mem_freshOrders, mem_groupOf, and_assoc]

/-- **The fresh orders of a batch are outstanding.** -/
theorem settledIds_subset (hs : Coherent rejects s) {messages : List SeckillOrderMessage}
    (hsent : ∀ m ∈ messages, m ∈ s.kafka) :
    settledIds v messages s.db ⊆ outstandingIds v s := by
  intro o ho
  obtain ⟨d, hd, hv, hn, rfl⟩ := mem_settledIds.mp ho
  obtain ⟨r, hr, hid, -, hrv⟩ := hs.draft_granted hsent (mem_drafts_of_mem_uniqueOrders hd)
  exact hs.mem_outstandingIds.mpr ⟨r, hs.granted_of_inOutbox hr, hrv.trans hv, hid, hn⟩

theorem outstandingIds_persist (hs : Coherent rejects s) (ht : Coherent rejects t)
    {tx : Transaction} {messages : List SeckillOrderMessage} {os : List OrderDraft}
    (hsent : ∀ m ∈ messages, m ∈ s.kafka)
    (hok : createOrders tx messages s.db = .ok (os, t.db)) (hg : t.granted = s.granted) :
    outstandingIds v t = outstandingIds v s \ settledIds v messages s.db := by
  ext o
  rw [Finset.mem_sdiff, ht.mem_outstandingIds, hs.mem_outstandingIds, hg]
  constructor
  · rintro ⟨r, hr, hv, rfl, hn⟩
    rw [Db.not_hasOrder_iff] at hn
    refine ⟨⟨r, hr, hv, rfl, ?_⟩, fun hmem => ?_⟩
    · rw [Db.not_hasOrder_iff]
      exact fun row hrow => hn row ((createOrders_mem_rows hok).mpr (Or.inl hrow))
    · obtain ⟨d, hd, -, hdn, hid⟩ := mem_settledIds.mp hmem
      exact hn _ ((createOrders_mem_rows hok).mpr
        (Or.inr ⟨d, mem_freshOrders.mpr ⟨hd, hdn⟩, rfl⟩)) hid
  · rintro ⟨⟨r, hr, hv, rfl, hn⟩, hmem⟩
    refine ⟨r, hr, hv, rfl, Db.not_hasOrder_iff.mpr fun row hrow he => ?_⟩
    rcases (createOrders_mem_rows hok).mp hrow with hrow | ⟨d, hd, rfl⟩
    · exact Db.not_hasOrder_iff.mp hn row hrow he
    · -- a row added under this order id is the accepted order, so it is one of `v`
      obtain ⟨hd, hdn⟩ := mem_freshOrders.mp hd
      obtain ⟨r', hr', hid, -, hv'⟩ := hs.draft_granted hsent (mem_drafts_of_mem_uniqueOrders hd)
      have heq : r' = r := hs.unique (hs.granted_of_inOutbox hr') hr (hid.trans he)
      subst heq
      exact hmem (mem_settledIds.mpr ⟨d, hd, hv'.symm.trans hv, hdn, he⟩)

/-! ## Every step is a move -/

/-- **Each step of the pipeline is one move of the voucher's ledger.** -/
theorem ledger_step {a : Action} {l : Ledger OrderId} (hs : Coherent rejects s)
    (hl : HasLedger v s l) (hstep : step rejects s a = some t) :
    ∃ l', HasLedger v t l' ∧ Ledger.Move l l' := by
  have ht := coherent_step hs hstep
  cases step_effect hs hstep with
  | quiet stores granted =>
    refine ⟨l, ⟨?_, ?_, ?_⟩, .idle l⟩
    · rw [stores.stock, hl.free]
    · rw [hl.held, outstandingIds_congr hs ht granted (hasOrder_of_orders stores.orders)]
    · rw [stores.dbStock, hl.stock]
  | reserved c n _ _ fresh stock positive notPurchased open_ redis db granted =>
    have hout := @outstandingIds_reserve _ _ _ v c hs ht fresh db granted
    by_cases hv : c.voucherId = v
    · have hn : n = l.free := by
        have := hl.free
        rw [← hv, stock] at this
        exact Option.some.inj this
      refine ⟨⟨l.free - 1, insert c.orderId l.held, l.stock⟩, ⟨?_, ?_, ?_⟩, .reserve ?_ ?_⟩
      · rw [redis, ← hv, ← hn]
        simp [Redis.reserve]
      · rw [hout, if_pos hv, hl.held]
      · rw [db, hl.stock]
      · rw [hl.held]
        exact not_mem_outstandingIds hs fresh
      · rw [← hn]
        exact positive
    · refine ⟨l, ⟨?_, ?_, ?_⟩, .idle l⟩
      · rw [redis, ← hl.free]
        exact Function.update_of_ne (Ne.symm hv) _ _
      · rw [hout, if_neg hv, hl.held]
      · rw [db, hl.stock]
  | persisted tx messages os _ sent created redis granted =>
    refine ⟨⟨l.free, l.held \ settledIds v messages s.db,
      l.stock - (settledIds v messages s.db).card⟩, ⟨?_, ?_, ?_⟩, .settle ?_⟩
    · rw [redis, hl.free]
    · rw [outstandingIds_persist hs ht sent created granted, hl.held]
    · rw [createOrders_stock created, hl.stock, card_settledIds]
      rfl
    · rw [hl.held]
      exact settledIds_subset hs sent
  | cancelled _ order n _ _ selected cancel stock redis granted =>
    obtain ⟨-, -, ⟨S, hS, hdb⟩, -⟩ := cancelInTransaction_some cancel
    have hout : outstandingIds v t = outstandingIds v s :=
      outstandingIds_congr hs ht granted (hasOrder_cancel cancel)
    by_cases hv : order.voucherId = v
    · subst hv
      have hn : n = l.free := by rw [hl.free] at stock; exact (Option.some.inj stock).symm
      have hSl : S = l.stock := by rw [hl.stock] at hS; exact (Option.some.inj hS).symm
      refine ⟨⟨l.free + 1, l.held, l.stock + 1⟩, ⟨?_, ?_, ?_⟩, .restock l⟩
      · rw [redis, ← hn]
        simp
      · rw [hout, hl.held]
      · rw [hdb, ← hSl]
        simp
    · refine ⟨l, ⟨?_, ?_, ?_⟩, .idle l⟩
      · rw [redis, ← hl.free]
        exact Function.update_of_ne (Ne.symm hv) _ _
      · rw [hout, hl.held]
      · rw [hdb, ← hl.stock]
        exact Function.update_of_ne (Ne.symm hv) _ _

/-! ## Runs -/

/-- The ledger of `v` is balanced. -/
def Balanced (v : VoucherId) (s : State) : Prop := ∃ l, HasLedger v s l ∧ l.Balanced

theorem balanced_step {a : Action} (hs : Coherent rejects s) (hb : Balanced v s)
    (hstep : step rejects s a = some t) : Balanced v t := by
  obtain ⟨l, hl, hlb⟩ := hb
  obtain ⟨l', hl', hm⟩ := ledger_step hs hl hstep
  exact ⟨l', hl', hlb.move hm⟩

/-- What a balanced ledger says of the stores. -/
structure Conserved (v : VoucherId) (s : State) (r S : ℤ) : Prop where
  redis : s.redis.stock v = some r
  mysql : s.db.stock v = some S
  redis_nonneg : 0 ≤ r
  mysql_nonneg : 0 ≤ S
  balance : r + (outstandingIds v s).card = S

theorem balanced_iff : Balanced v s ↔ ∃ r S, Conserved v s r S := by
  constructor
  · rintro ⟨l, hl, hlb⟩
    exact ⟨l.free, l.stock, hl.free, hl.stock, hlb.free_nonneg, hlb.stock_nonneg, by
      rw [← hl.held]
      exact hlb.balance⟩
  · rintro ⟨r, S, hr, hS, hr0, -, hb⟩
    exact ⟨⟨r, outstandingIds v s, S⟩, ⟨hr, rfl, hS⟩, ⟨hr0, hb⟩⟩

/-- A balanced ledger covers every batch. -/
theorem Balanced.ne_mismatch (hb : Balanced v s) (hs : Coherent rejects s) (tx : Transaction)
    {messages : List SeckillOrderMessage} (hsent : ∀ m ∈ messages, m ∈ s.kafka) (n : ℕ) :
    createOrders tx messages s.db ≠ .error (.databaseStockMismatch v n) := by
  intro herr
  obtain ⟨l, hl, hlb⟩ := hb
  obtain ⟨hn, hlt⟩ := createOrders_stockMismatch herr
  have hsubset : settledIds v messages s.db ⊆ l.held := hl.held ▸ settledIds_subset hs hsent
  have hle := hlb.covers hsubset
  rw [card_settledIds, ← hn] at hle
  have := hlt _ hl.stock
  omega

theorem Start.outstandingIds (h : Start s) : outstandingIds v s = ∅ := by
  rw [Finset.eq_empty_iff_forall_notMem]
  intro o ho
  obtain ⟨r, hr, -⟩ := (@Start.coherent (fun _ => false) s h).mem_outstandingIds.mp ho
  rw [h.granted] at hr
  exact absurd hr (by simp)

/-- **Stock conservation.** From equal stocks and no orders, in every reachable state both stocks
are there and not negative, the Redis stock and the outstanding orders make up the MySQL stock,
and no delivery of messages that were sent meets too little stock. -/
theorem stock_conserved (rejects : Reservation → Bool) (v : VoucherId) {n : ℤ} {s t : State}
    {as : List Action} (hstart : Start s) (hredis : s.redis.stock v = some n)
    (hmysql : s.db.stock v = some n) (hn : 0 ≤ n) (hrun : run (step rejects) s as = some t) :
    (∃ r S, Conserved v t r S) ∧ ∀ tx messages, (∀ m ∈ messages, m ∈ t.kafka) →
      ∀ k, createOrders tx messages t.db ≠ .error (.databaseStockMismatch v k) := by
  have hfirst : Coherent rejects s ∧ Balanced v s := by
    refine ⟨hstart.coherent, balanced_iff.mpr ⟨n, n, hredis, hmysql, hn, hn, ?_⟩⟩
    rw [hstart.outstandingIds]
    simp
  obtain ⟨ht, hb⟩ := run_invariant' (I := fun s => Coherent rejects s ∧ Balanced v s)
    (fun _ _ _ hs hstep => ⟨coherent_step hs.1 hstep, balanced_step hs.1 hs.2 hstep⟩) hfirst hrun
  exact ⟨balanced_iff.mp hb, fun tx messages hsent k => hb.ne_mismatch ht tx hsent k⟩

/-- User 5 buys, the order reaches the table, its message is delivered again, and the order is
cancelled. -/
def soldAndCancelled : List Action :=
  buy 1 5 :: relayOne ++
    [.send (rowOf 1 1 5) true, .createOrders atZero [(rowOf 1 1 5).toMessage true],
      .createOrders atZero [(rowOf 1 1 5).toMessage true],
      .selectOrder 0 NewestFirst.first 5 7, .cancel 0]

theorem stock_conserved_sold_and_cancelled :
    ∃ t, run (step fun _ => false) (onSale 1) soldAndCancelled = some t ∧
      (∃ r S, Conserved 7 t r S) ∧ ∀ tx messages, (∀ m ∈ messages, m ∈ t.kafka) →
        ∀ k, createOrders tx messages t.db ≠ .error (.databaseStockMismatch 7 k) := by
  obtain ⟨t, ht⟩ := Option.isSome_iff_exists.mp
    (show (run (step fun _ => false) (onSale 1) soldAndCancelled).isSome = true by decide +kernel)
  exact ⟨t, ht, stock_conserved (fun _ => false) 7 (start_onSale 1) rfl rfl (by omega) ht⟩

end Hmdp.Pipeline
