import Hmdp.Model.Consumer

/-!
# What the consumer transaction does

The loop of `createVoucherOrders` in closed form. An order of the batch is fresh when no row has
its id; a voucher's group passes (`GroupOk`) when, in case some order of it is not fresh, every
order of it is the newest live order of its user on the table extended by the group's fresh
orders, and when the stock covers the fresh ones. Every group is judged on the state before the
transaction: the earlier groups insert rows of other vouchers only (`GroupOk.congr`).

* `persistGroup_ok`, `persistGroup_of_groupOk`: one group.
* `persistGroups_ok`, `persistGroups_of_groupOk`: all groups, by induction on them.
* **`createOrders_ok_iff`**: the transaction returns normally iff the batch is `Accepted`.
* **`createOrders_ok`**: and then the table grows by exactly the fresh orders, each voucher's
  stock falls by their number, and the outbox changes only by completing rows (`Persisted`).
* `createOrders_stockMismatch`: `DatabaseStockMismatchException` means that the stock does not
  cover the fresh orders of the voucher.
-/

namespace Hmdp.Model

open Hmdp.Lib

variable {tx : Transaction} {db db' : Db} {orders : List OrderDraft} {v w : VoucherId}

/-! ## Fresh orders -/

/-- The orders no row has the id of. -/
def freshOrders (db : Db) (orders : List OrderDraft) : List OrderDraft :=
  orders.filter fun o => !db.hasOrder o.id

/-- The rows a voucher's group adds. -/
def groupRows (tx : Transaction) (db : Db) (orders : List OrderDraft) (v : VoucherId) :
    List VoucherOrder :=
  (freshOrders db (groupOf orders v)).map (OrderDraft.row (tx.insertTime v))

/-- The group of `v` passes. -/
structure GroupOk (tx : Transaction) (db : Db) (orders : List OrderDraft) (v : VoucherId) :
    Prop where
  /-- With an order that is not fresh, `verifyIgnoredOrdersExist` accepts every order. -/
  verified : (∃ o ∈ groupOf orders v, db.hasOrder o.id = true) → ∀ o ∈ groupOf orders v,
    selectOrderId tx.pick o.userId o.voucherId (db.orders.rows ++ groupRows tx db orders v) =
      some o.id
  /-- `decrementStock` updates one row. -/
  stocked : freshOrders db (groupOf orders v) ≠ [] →
    ∃ s, db.stock v = some s ∧ ((freshOrders db (groupOf orders v)).length : ℤ) ≤ s

/-- `db'` is `db` after the groups of the vouchers `vs`. -/
structure Persisted (tx : Transaction) (db : Db) (orders : List OrderDraft) (vs : List VoucherId)
    (db' : Db) : Prop where
  rows : db'.orders.rows = db.orders.rows ++ vs.flatMap (groupRows tx db orders)
  stock : ∀ w, db'.stock w =
    if w ∈ vs then (db.stock w).map (· - ((freshOrders db (groupOf orders w)).length : ℤ))
    else db.stock w
  outbox : db'.outbox = db.outbox
  outboxSeq : db'.outboxSeq = db.outboxSeq

theorem mem_groupOf {o : OrderDraft} : o ∈ groupOf orders v ↔ o ∈ orders ∧ o.voucherId = v := by
  simp [groupOf]

theorem mem_freshOrders {o : OrderDraft} :
    o ∈ freshOrders db orders ↔ o ∈ orders ∧ db.hasOrder o.id = false := by
  simp [freshOrders]

theorem mem_groupRows {r : VoucherOrder} :
    r ∈ groupRows tx db orders v ↔ ∃ o ∈ orders, o.voucherId = v ∧ db.hasOrder o.id = false ∧
      o.row (tx.insertTime v) = r := by
  simp only [groupRows, List.mem_map, mem_freshOrders, mem_groupOf, and_assoc]

theorem groupOf_nodup (h : (orders.map OrderDraft.id).Nodup) (v : VoucherId) :
    ((groupOf orders v).map OrderDraft.id).Nodup :=
  (List.filter_sublist.map _).nodup h

theorem freshOrders_length_lt_iff {g : List OrderDraft} :
    (freshOrders db g).length < g.length ↔ ∃ o ∈ g, db.hasOrder o.id = true := by
  rw [freshOrders, List.length_filter_lt_length_iff_exists]
  simp

/-! ## One group -/

/-- `INSERT IGNORE` of a group with distinct ids inserts exactly its fresh orders. -/
theorem batchInsertIgnore_fresh {now : Time} {g : List OrderDraft}
    (hg : (g.map OrderDraft.id).Nodup) :
    (batchInsertIgnore now g db).1 = (freshOrders db g).length ∧
      (batchInsertIgnore now g db).2.orders.rows =
        db.orders.rows ++ (freshOrders db g).map (OrderDraft.row now) := by
  have hrows : newRows orderKeys.clash db.orders.rows (g.map (OrderDraft.row now)) =
      (freshOrders db g).map (OrderDraft.row now) := by
    show newRows (sameKey VoucherOrder.id) _ _ = _
    rw [newRows_key_eq_filter (by simpa [Function.comp_def, OrderDraft.row] using hg),
      List.filter_map, freshOrders]
    refine congrArg _ (List.filter_congr fun o _ => ?_)
    rw [Function.comp_apply, Bool.eq_iff_iff, decide_eq_true_eq, Bool.not_eq_true',
      Db.not_hasOrder_iff, List.mem_map]
    simp [OrderDraft.row]
  constructor
  · show (newRows orderKeys.clash _ _).length = _
    rw [hrows, List.length_map]
  · show _ ++ newRows orderKeys.clash _ _ = _
    rw [hrows]

theorem verifyIgnoredOrdersExist_ok_iff {pick : NewestFirst} {rows : List VoucherOrder}
    {g : List OrderDraft} : verifyIgnoredOrdersExist pick rows g = .ok () ↔
      ∀ o ∈ g, selectOrderId pick o.userId o.voucherId rows = some o.id := by
  induction g with
  | nil => simp [verifyIgnoredOrdersExist]
  | cons o g ih =>
    rw [List.forall_mem_cons, ← ih, verifyIgnoredOrdersExist]
    cases h : selectOrderId pick o.userId o.voucherId rows with
    | none => simp
    | some e =>
      by_cases he : o.id = e
      · simp [he]
      · simp [he, Ne.symm he]

theorem verifyIgnoredOrdersExist_ne_mismatch {pick : NewestFirst} {rows : List VoucherOrder}
    {n : ℕ} {g : List OrderDraft} :
    verifyIgnoredOrdersExist pick rows g ≠ .error (.databaseStockMismatch v n) := by
  induction g with
  | nil => simp [verifyIgnoredOrdersExist]
  | cons o g ih =>
    unfold verifyIgnoredOrdersExist
    split
    · simp
    · split
      · simp
      · exact ih

/-- **One group, closed form**: it is persisted as `GroupOk` says, or fails on its verification,
or on its stock. -/
theorem persistGroup_cases (hids : (orders.map OrderDraft.id).Nodup) (v : VoucherId) :
    (GroupOk tx db orders v ∧ ∃ db', persistGroup tx v (groupOf orders v) db = .ok db' ∧
        Persisted tx db orders [v] db') ∨
      (¬GroupOk tx db orders v ∧ ∃ e, persistGroup tx v (groupOf orders v) db = .error e ∧
        ∀ w n, e = .databaseStockMismatch w n →
          w = v ∧ n = (freshOrders db (groupOf orders v)).length ∧
            ∀ s, db.stock v = some s → s < n) := by
  obtain ⟨hcount, hrows⟩ := @batchInsertIgnore_fresh db (tx.insertTime v) (groupOf orders v)
    (groupOf_nodup hids v)
  have hstock : (batchInsertIgnore (tx.insertTime v) (groupOf orders v) db).2.stock = db.stock :=
    rfl
  have houtbox : (batchInsertIgnore (tx.insertTime v) (groupOf orders v) db).2.outbox =
    db.outbox := rfl
  have hseq : (batchInsertIgnore (tx.insertTime v) (groupOf orders v) db).2.outboxSeq =
    db.outboxSeq := rfl
  change _ = db.orders.rows ++ groupRows tx db orders v at hrows
  unfold persistGroup
  generalize batchInsertIgnore (tx.insertTime v) (groupOf orders v) db = inserted at *
  simp only [hcount, hrows]
  generalize hn : (freshOrders db (groupOf orders v)).length = n at *
  -- the verification, run only when some order of the group already has a row
  by_cases hver : (∃ o ∈ groupOf orders v, db.hasOrder o.id = true) →
      ∀ o ∈ groupOf orders v, selectOrderId tx.pick o.userId o.voucherId
        (db.orders.rows ++ groupRows tx db orders v) = some o.id
  · have hok : (if n < (groupOf orders v).length then
        verifyIgnoredOrdersExist tx.pick (db.orders.rows ++ groupRows tx db orders v)
          (groupOf orders v) else .ok ()) = .ok () := by
      split
      · rename_i hlt
        rw [← hn] at hlt
        exact verifyIgnoredOrdersExist_ok_iff.mpr (hver (freshOrders_length_lt_iff.mp hlt))
      · rfl
    rw [hok]
    by_cases hzero : n = 0
    · subst hzero
      have hnil := List.length_eq_zero_iff.mp hn
      refine Or.inl ⟨⟨hver, fun h => absurd hnil h⟩, inserted.2, rfl, ?_, ?_, houtbox, hseq⟩
      · rw [hrows, List.flatMap_singleton]
      · intro u
        rw [hstock]
        split
        · rename_i hu
          rw [List.mem_singleton.mp hu, hn]
          simp
        · rfl
    · have hne : freshOrders db (groupOf orders v) ≠ [] := by
        intro h
        rw [h] at hn
        exact hzero hn.symm
      simp only [hzero, if_false]
      rcases decrementStock_cases v n inserted.2 with ⟨s, hs, hle, hdec⟩ | ⟨hlt, hdec⟩
      · rw [hstock] at hs
        rw [hdec]
        refine Or.inl ⟨⟨hver, fun _ => ⟨s, hs, by rwa [hn]⟩⟩,
          { inserted.2 with stock := Function.update inserted.2.stock v (some (s - (n : ℤ))) },
          rfl, ?_, ?_, houtbox, hseq⟩
        · rw [List.flatMap_singleton]
          exact hrows
        · intro u
          show Function.update inserted.2.stock v _ u = _
          by_cases hu : u = v
          · subst hu
            simp [hs, hn]
          · rw [if_neg (by simpa using hu), Function.update_of_ne hu, hstock]
      · rw [hstock] at hlt
        refine Or.inr ⟨fun h => ?_, .databaseStockMismatch v n, by rw [hdec]; rfl, ?_⟩
        · obtain ⟨s, hs, hle⟩ := h.stocked hne
          rw [hn] at hle
          exact absurd hle (not_le.mpr (hlt s hs))
        · intro w m he
          cases he
          exact ⟨rfl, rfl, hlt⟩
  · -- some order is not the newest live one of its user
    have hex : ∃ o ∈ groupOf orders v, db.hasOrder o.id = true := by
      by_contra h
      exact hver fun h' => absurd h' h
    have hlt : n < (groupOf orders v).length := by
      rw [← hn]
      exact freshOrders_length_lt_iff.mpr hex
    rw [if_pos hlt]
    cases hv : verifyIgnoredOrdersExist tx.pick (db.orders.rows ++ groupRows tx db orders v)
        (groupOf orders v) with
    | ok u => exact absurd (fun _ => verifyIgnoredOrdersExist_ok_iff.mp hv) hver
    | error e =>
      refine Or.inr ⟨fun h => hver h.verified, e, rfl, fun w m he => ?_⟩
      rw [he] at hv
      exact absurd hv verifyIgnoredOrdersExist_ne_mismatch

/-! ## All groups -/

/-- The rows a group adds are of its voucher. -/
theorem voucherId_of_mem_groupRows {r : VoucherOrder} (h : r ∈ groupRows tx db orders v) :
    r.voucherId = v := by
  obtain ⟨o, -, ho, -, rfl⟩ := mem_groupRows.mp h
  exact ho

theorem liveOrders_append (rows rows' : List VoucherOrder) (u : UserId) (v : VoucherId) :
    liveOrders (rows ++ rows') u v = liveOrders rows u v ++ liveOrders rows' u v :=
  List.filter_append _ _

/-- Another group leaves which orders of a voucher are fresh. -/
theorem Persisted.freshOrders_eq (hids : (orders.map OrderDraft.id).Nodup)
    (h : Persisted tx db orders [v] db') (hw : w ≠ v) :
    freshOrders db' (groupOf orders w) = freshOrders db (groupOf orders w) := by
  refine List.filter_congr fun o ho => ?_
  obtain ⟨ho, hov⟩ := mem_groupOf.mp ho
  have hiff : db'.hasOrder o.id = true ↔ db.hasOrder o.id = true := by
    rw [Db.hasOrder_iff, Db.hasOrder_iff, h.rows, List.flatMap_singleton]
    constructor
    · rintro ⟨r, hr, hrid⟩
      rcases List.mem_append.mp hr with hr | hr
      · exact ⟨r, hr, hrid⟩
      · obtain ⟨p, hp, hpv, -, rfl⟩ := mem_groupRows.mp hr
        have : p = o := List.inj_on_of_nodup_map hids hp ho hrid
        exact absurd (by rw [← hov, ← this, hpv]) hw
    · rintro ⟨r, hr, hrid⟩
      exact ⟨r, List.mem_append_left _ hr, hrid⟩
  rw [Bool.eq_iff_iff.mpr hiff]

theorem Persisted.groupRows_eq (hids : (orders.map OrderDraft.id).Nodup)
    (h : Persisted tx db orders [v] db') (hw : w ≠ v) :
    groupRows tx db' orders w = groupRows tx db orders w := by
  rw [groupRows, h.freshOrders_eq hids hw, groupRows]

theorem Persisted.stock_ne (h : Persisted tx db orders [v] db') (hw : w ≠ v) :
    db'.stock w = db.stock w := by
  rw [h.stock, if_neg (by simpa using hw)]

/-- **A group is judged the same before and after another one.** -/
theorem GroupOk.congr (hids : (orders.map OrderDraft.id).Nodup)
    (h : Persisted tx db orders [v] db') (hw : w ≠ v) :
    GroupOk tx db' orders w ↔ GroupOk tx db orders w := by
  have hfresh := h.freshOrders_eq hids hw
  have hexists : (∃ o ∈ groupOf orders w, db'.hasOrder o.id = true) ↔
      ∃ o ∈ groupOf orders w, db.hasOrder o.id = true := by
    rw [← freshOrders_length_lt_iff, ← freshOrders_length_lt_iff, hfresh]
  have hselect : ∀ o ∈ groupOf orders w,
      selectOrderId tx.pick o.userId o.voucherId
          (db'.orders.rows ++ groupRows tx db' orders w) =
        selectOrderId tx.pick o.userId o.voucherId
          (db.orders.rows ++ groupRows tx db orders w) := by
    intro o ho
    have hnil : liveOrders (groupRows tx db orders v) o.userId o.voucherId = [] := by
      rw [List.eq_nil_iff_forall_not_mem]
      intro r hr
      obtain ⟨hr, -, hrv, -⟩ := mem_liveOrders.mp hr
      rw [voucherId_of_mem_groupRows hr, (mem_groupOf.mp ho).2] at hrv
      exact hw hrv.symm
    rw [h.groupRows_eq hids hw, h.rows, List.flatMap_singleton]
    unfold selectOrderId
    rw [liveOrders_append, liveOrders_append, hnil, List.append_nil, ← liveOrders_append]
  constructor
  · intro hg
    refine ⟨fun hex o ho => ?_, ?_⟩
    · rw [← hselect o ho]
      exact hg.verified (hexists.mpr hex) o ho
    · have := hg.stocked
      rwa [hfresh, h.stock_ne hw] at this
  · intro hg
    refine ⟨fun hex o ho => ?_, ?_⟩
    · rw [hselect o ho]
      exact hg.verified (hexists.mp hex) o ho
    · rw [hfresh, h.stock_ne hw]
      exact hg.stocked

/-- One group, then the rest. -/
theorem Persisted.cons (hids : (orders.map OrderDraft.id).Nodup) {db'' : Db}
    {vs : List VoucherId} (hv : v ∉ vs) (h : Persisted tx db orders [v] db')
    (h' : Persisted tx db' orders vs db'') : Persisted tx db orders (v :: vs) db'' where
  rows := by
    rw [h'.rows, h.rows, List.flatMap_singleton, List.flatMap_cons, List.append_assoc]
    congr 2
    refine List.flatMap_congr fun w hw => ?_
    exact h.groupRows_eq hids fun he => hv (he ▸ hw)
  stock u := by
    rw [h'.stock]
    by_cases hu : u ∈ vs
    · have huv : u ≠ v := fun he => hv (he ▸ hu)
      rw [if_pos hu, if_pos (List.mem_cons_of_mem v hu), h.freshOrders_eq hids huv, h.stock_ne huv]
    · rw [if_neg hu, h.stock]
      by_cases huv : u = v
      · simp [huv]
      · simp [huv, hu]
  outbox := h'.outbox.trans h.outbox
  outboxSeq := h'.outboxSeq.trans h.outboxSeq

theorem persistGroups_ok (hids : (orders.map OrderDraft.id).Nodup) {vs : List VoucherId}
    {db db' : Db} (hn : vs.Nodup) (h : persistGroups tx orders vs db = .ok db') :
    (∀ v ∈ vs, GroupOk tx db orders v) ∧ Persisted tx db orders vs db' := by
  induction vs generalizing db with
  | nil =>
    cases h
    exact ⟨by simp, by simp, by simp, rfl, rfl⟩
  | cons v vs ih =>
    obtain ⟨hv, hn⟩ := List.nodup_cons.mp hn
    unfold persistGroups at h
    rcases @persistGroup_cases tx db orders hids v with ⟨hg, d, hd, hp⟩ | ⟨-, e, he, -⟩
    · rw [hd] at h
      obtain ⟨hgs, hp'⟩ := ih hn h
      refine ⟨?_, hp.cons hids hv hp'⟩
      intro w hw
      rcases List.mem_cons.mp hw with rfl | hw
      · exact hg
      · exact (GroupOk.congr hids hp fun he => hv (he ▸ hw)).mp (hgs w hw)
    · rw [he] at h
      exact absurd h (by simp)

theorem persistGroups_of_groupOk (hids : (orders.map OrderDraft.id).Nodup)
    {vs : List VoucherId} {db : Db} (hn : vs.Nodup) (hg : ∀ v ∈ vs, GroupOk tx db orders v) :
    ∃ db', persistGroups tx orders vs db = .ok db' := by
  induction vs generalizing db with
  | nil => exact ⟨db, rfl⟩
  | cons v vs ih =>
    obtain ⟨hv, hn⟩ := List.nodup_cons.mp hn
    unfold persistGroups
    rcases @persistGroup_cases tx db orders hids v with ⟨-, d, hd, hp⟩ | ⟨hng, -⟩
    · rw [hd]
      refine ih hn fun w hw => ?_
      exact (GroupOk.congr hids hp fun he => hv (he ▸ hw)).mpr (hg w (List.mem_cons_of_mem v hw))
    · exact absurd (hg v List.mem_cons_self) hng

/-- The stock error names a voucher whose stock does not cover its fresh orders. -/
theorem persistGroups_stockMismatch (hids : (orders.map OrderDraft.id).Nodup) {n : ℕ}
    {vs : List VoucherId} {db : Db} (hn : vs.Nodup)
    (h : persistGroups tx orders vs db = .error (.databaseStockMismatch w n)) :
    n = (freshOrders db (groupOf orders w)).length ∧ ∀ s, db.stock w = some s → s < n := by
  induction vs generalizing db with
  | nil => simp [persistGroups] at h
  | cons v vs ihv =>
    obtain ⟨hv, hn⟩ := List.nodup_cons.mp hn
    have hmem : ∀ {d : Db} {us : List VoucherId},
        persistGroups tx orders us d = .error (.databaseStockMismatch w n) → w ∈ us := by
      intro d us
      induction us generalizing d with
      | nil => simp [persistGroups]
      | cons u us ih =>
        intro h
        unfold persistGroups at h
        rcases @persistGroup_cases tx d orders hids u with ⟨-, d', hd, -⟩ | ⟨-, e, he, hm⟩
        · rw [hd] at h
          exact List.mem_cons_of_mem u (ih h)
        · rw [he] at h
          cases h
          exact List.mem_cons.mpr (Or.inl (hm w n rfl).1)
    unfold persistGroups at h
    rcases @persistGroup_cases tx db orders hids v with ⟨-, d, hd, hp⟩ | ⟨-, e, he, hm⟩
    · rw [hd] at h
      have hw : w ≠ v := fun he => hv (he ▸ hmem h)
      have := ihv hn h
      rwa [hp.freshOrders_eq hids hw, hp.stock_ne hw] at this
    · rw [he] at h
      cases h
      obtain ⟨rfl, hn', hs⟩ := hm w n rfl
      exact ⟨hn', hs⟩

/-! ## The whole transaction -/

theorem voucherIds_nodup (orders : List OrderDraft) : (voucherIds orders).Nodup := by
  have := @nodup_insertIgnore VoucherId [] (orders.map OrderDraft.voucherId) VoucherId _ id
    List.nodup_nil
  rwa [List.map_id] at this

theorem mem_voucherIds : v ∈ voucherIds orders ↔ ∃ o ∈ orders, o.voucherId = v := by
  have := @insertIgnore_key VoucherId [] (orders.map OrderDraft.voucherId) VoucherId _ id v
  rw [List.map_id, List.map_id] at this
  exact this.trans (by simp)

/-- A voucher of no order: nothing to check. -/
theorem groupOk_of_not_mem (h : v ∉ voucherIds orders) : GroupOk tx db orders v := by
  have hnil : groupOf orders v = [] := by
    rw [List.eq_nil_iff_forall_not_mem]
    intro o ho
    exact h (mem_voucherIds.mpr ⟨o, mem_groupOf.mp ho⟩)
  refine ⟨fun ⟨o, ho, _⟩ => ?_, fun hne => ?_⟩
  · rw [hnil] at ho
    exact absurd ho (by simp)
  · rw [hnil] at hne
    exact absurd rfl hne

/-- **The batches that are persisted.** -/
structure Accepted (tx : Transaction) (db : Db) (messages : List SeckillOrderMessage) : Prop where
  wellFormed : WellFormed messages
  groupOk : ∀ v, GroupOk tx db (uniqueOrders messages) v

/-- Completing outbox rows is one update, of rows of the batch. -/
theorem completeOutbox_eq (tx : Transaction) (c : Collected) (db : Db) :
    ∃ sel : OutboxRow → Bool, completeOutbox tx c db =
        (updateOutbox (fun e => sel e && e.backlog) (.completed tx.completeTime) db).2 ∧
      ∀ e, sel e = true → e.id ∈ c.outboxIdsByOrder.map Prod.snd ∨
        e.orderId ∈ c.uniqueOrders.map OrderDraft.id := by
  unfold completeOutbox
  split
  · exact ⟨_, rfl, fun e he => Or.inl (by
      simpa only [decide_eq_true_eq, List.mem_insertionSort] using he)⟩
  · exact ⟨_, rfl, fun e he => Or.inr (by
      simpa only [decide_eq_true_eq, List.mem_insertionSort] using he)⟩

/-- **`createOrders` returns normally iff the batch is accepted.** -/
theorem createOrders_ok_iff {messages : List SeckillOrderMessage} :
    (∃ r, createOrders tx messages db = .ok r) ↔ Accepted tx db messages := by
  have hids := uniqueOrders_nodup messages
  unfold createOrders
  by_cases hnil : messages = []
  · subst hnil
    simp only [if_true]
    refine ⟨fun _ => ⟨⟨by simp, by simp [drafts]⟩, fun v => ?_⟩, fun _ => ⟨_, rfl⟩⟩
    exact groupOk_of_not_mem (by simp [mem_voucherIds, uniqueOrders, drafts, insertIgnore, newRows])
  simp only [hnil, if_false]
  constructor
  · rintro ⟨r, h⟩
    cases hc : collect ⟨[], []⟩ messages with
    | error e => simp [hc] at h
    | ok c =>
      simp only [hc] at h
      cases hd : createVoucherOrders tx c.uniqueOrders db with
      | error e => simp [hd] at h
      | ok d =>
        rw [collect_uniqueOrders hc] at hd
        have hg := (persistGroups_ok hids (voucherIds_nodup _) hd).1
        refine ⟨collect_ok_iff.mp ⟨c, hc⟩, fun v => ?_⟩
        by_cases hv : v ∈ voucherIds (uniqueOrders messages)
        · exact hg v hv
        · exact groupOk_of_not_mem hv
  · rintro ⟨hwf, hg⟩
    obtain ⟨c, hc⟩ := collect_ok_iff.mpr hwf
    obtain ⟨d, hd⟩ := persistGroups_of_groupOk hids (voucherIds_nodup (uniqueOrders messages))
      fun v _ => hg v
    have hd' : createVoucherOrders tx c.uniqueOrders db = .ok d := by
      rw [collect_uniqueOrders hc]
      exact hd
    exact ⟨(c.uniqueOrders, completeOutbox tx c d), by simp [hc, hd']⟩

/-- **What an accepted batch does.** -/
theorem createOrders_ok {messages : List SeckillOrderMessage} {os : List OrderDraft}
    (h : createOrders tx messages db = .ok (os, db')) :
    ∃ c d, collect ⟨[], []⟩ messages = .ok c ∧ c.uniqueOrders = uniqueOrders messages ∧
      Persisted tx db (uniqueOrders messages) (voucherIds (uniqueOrders messages)) d ∧
      (messages = [] ∧ db' = d ∨ db' = completeOutbox tx c d) := by
  unfold createOrders at h
  by_cases hnil : messages = []
  · subst hnil
    simp only [if_true] at h
    cases h
    exact ⟨⟨[], []⟩, db, rfl, rfl,
      ⟨by simp [voucherIds, uniqueOrders, drafts, insertIgnore, newRows],
        by simp [voucherIds, uniqueOrders, drafts, insertIgnore, newRows], rfl, rfl⟩,
      Or.inl ⟨rfl, rfl⟩⟩
  simp only [hnil, if_false] at h
  cases hc : collect ⟨[], []⟩ messages with
  | error e => simp [hc] at h
  | ok c =>
    simp only [hc] at h
    cases hd : createVoucherOrders tx c.uniqueOrders db with
    | error e => simp [hd] at h
    | ok d =>
      simp only [hd, Except.ok.injEq, Prod.mk.injEq] at h
      have hu := collect_uniqueOrders hc
      rw [hu] at hd
      exact ⟨c, d, rfl, hu, (persistGroups_ok (uniqueOrders_nodup messages)
        (voucherIds_nodup _) hd).2, Or.inr h.2.symm⟩

/-- The rows a normally returning batch adds. -/
theorem Persisted.mem_rows (h : Persisted tx db orders (voucherIds orders) db')
    {r : VoucherOrder} : r ∈ db'.orders.rows ↔ r ∈ db.orders.rows ∨
      ∃ o ∈ freshOrders db orders, o.row (tx.insertTime o.voucherId) = r := by
  rw [h.rows, List.mem_append, List.mem_flatMap]
  refine or_congr Iff.rfl ⟨?_, ?_⟩
  · rintro ⟨v, -, hr⟩
    obtain ⟨o, ho, rfl, hf, rfl⟩ := mem_groupRows.mp hr
    exact ⟨o, mem_freshOrders.mpr ⟨ho, hf⟩, rfl⟩
  · rintro ⟨o, ho, rfl⟩
    obtain ⟨ho, hf⟩ := mem_freshOrders.mp ho
    exact ⟨o.voucherId, mem_voucherIds.mpr ⟨o, ho, rfl⟩, mem_groupRows.mpr ⟨o, ho, rfl, hf, rfl⟩⟩

/-- Every order of the batch has a row. -/
theorem Persisted.hasOrder (h : Persisted tx db orders (voucherIds orders) db') {o : OrderDraft}
    (ho : o ∈ orders) : db'.hasOrder o.id = true := by
  rw [Db.hasOrder_iff]
  by_cases hold : db.hasOrder o.id = true
  · obtain ⟨r, hr, hid⟩ := Db.hasOrder_iff.mp hold
    exact ⟨r, h.mem_rows.mpr (Or.inl hr), hid⟩
  · exact ⟨_, h.mem_rows.mpr (Or.inr ⟨o, mem_freshOrders.mpr ⟨ho, by simpa using hold⟩, rfl⟩), rfl⟩

/-- The orders after a normally returning call: the old rows and the fresh ones. -/
theorem createOrders_mem_rows {messages : List SeckillOrderMessage} {os : List OrderDraft}
    (h : createOrders tx messages db = .ok (os, db')) {r : VoucherOrder} :
    r ∈ db'.orders.rows ↔ r ∈ db.orders.rows ∨
      ∃ o ∈ freshOrders db (uniqueOrders messages), o.row (tx.insertTime o.voucherId) = r := by
  obtain ⟨c, d, -, -, hp, hdb⟩ := createOrders_ok h
  rw [← hp.mem_rows]
  rcases hdb with ⟨-, rfl⟩ | rfl
  · exact Iff.rfl
  · obtain ⟨sel, hs, -⟩ := completeOutbox_eq tx c d
    rw [hs, updateOutbox_orders]

theorem createOrders_returns {messages : List SeckillOrderMessage} {os : List OrderDraft}
    (h : createOrders tx messages db = .ok (os, db')) : os = uniqueOrders messages := by
  unfold createOrders at h
  split at h
  · rename_i hnil
    cases h
    rw [hnil]
    rfl
  · split at h
    · cases h
    · rename_i c hc
      split at h
      · cases h
      · cases h
        exact collect_uniqueOrders hc

/-- Every returned order has its row, with its user and voucher. -/
theorem createOrders_row {messages : List SeckillOrderMessage} {os : List OrderDraft}
    (h : createOrders tx messages db = .ok (os, db')) {o : OrderDraft} (ho : o ∈ os) :
    ∃ r ∈ db'.orders.rows, r.id = o.id ∧ r.userId = o.userId ∧ r.voucherId = o.voucherId := by
  rw [createOrders_returns h] at ho
  have hrows := @createOrders_mem_rows tx db db' messages os h
  by_cases hold : db.hasOrder o.id = true
  · have hok : Accepted tx db messages := createOrders_ok_iff.mp ⟨_, h⟩
    have hpick := (hok.groupOk o.voucherId).verified ⟨o, mem_groupOf.mpr ⟨ho, rfl⟩, hold⟩ o
      (mem_groupOf.mpr ⟨ho, rfl⟩)
    obtain ⟨r, hr, hid⟩ := Option.map_eq_some_iff.mp hpick
    obtain ⟨hr, hu, hv, -⟩ := mem_liveOrders.mp (tx.pick.mem hr)
    refine ⟨r, hrows.mpr ?_, hid, hu, hv⟩
    refine (List.mem_append.mp hr).imp_right fun hr => ?_
    obtain ⟨p, hp, hpv, hfresh, rfl⟩ := mem_groupRows.mp hr
    exact ⟨p, mem_freshOrders.mpr ⟨hp, hfresh⟩, by rw [hpv]⟩
  · refine ⟨o.row (tx.insertTime o.voucherId), hrows.mpr (Or.inr ⟨o, ?_, rfl⟩), rfl, rfl, rfl⟩
    exact mem_freshOrders.mpr ⟨ho, by simpa using hold⟩

/-- The stock after a normally returning call. -/
theorem createOrders_stock {messages : List SeckillOrderMessage} {os : List OrderDraft}
    (h : createOrders tx messages db = .ok (os, db')) (w : VoucherId) :
    db'.stock w = (db.stock w).map
      (· - ((freshOrders db (groupOf (uniqueOrders messages) w)).length : ℤ)) := by
  obtain ⟨c, d, -, -, hp, hdb⟩ := createOrders_ok h
  have hstock : db'.stock = d.stock := by
    rcases hdb with ⟨-, rfl⟩ | rfl
    · rfl
    · obtain ⟨sel, hs, -⟩ := completeOutbox_eq tx c d
      rw [hs, updateOutbox_stock]
  rw [hstock, hp.stock]
  split
  · rfl
  · rename_i hw
    have hnil : groupOf (uniqueOrders messages) w = [] := by
      rw [List.eq_nil_iff_forall_not_mem]
      intro o ho
      exact hw (mem_voucherIds.mpr ⟨o, mem_groupOf.mp ho⟩)
    simp [hnil, freshOrders]

/-- **The stock error**: the stock of the voucher does not cover its fresh orders. -/
theorem createOrders_stockMismatch {messages : List SeckillOrderMessage} {n : ℕ}
    (h : createOrders tx messages db = .error (.databaseStockMismatch v n)) :
    n = (freshOrders db (groupOf (uniqueOrders messages) v)).length ∧
      ∀ s, db.stock v = some s → s < n := by
  unfold createOrders at h
  split at h
  · exact absurd h (by simp)
  cases hc : collect ⟨[], []⟩ messages with
  | error e =>
    simp only [hc, Except.error.injEq] at h
    subst h
    exact absurd hc collect_ne_mismatch
  | ok c =>
    simp only [hc] at h
    cases hd : createVoucherOrders tx c.uniqueOrders db with
    | ok d => simp [hd] at h
    | error e =>
      simp only [hd, Except.error.injEq] at h
      subst h
      rw [collect_uniqueOrders hc] at hd
      exact persistGroups_stockMismatch (uniqueOrders_nodup messages) (voucherIds_nodup _) hd

end Hmdp.Model
