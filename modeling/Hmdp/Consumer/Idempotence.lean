import Hmdp.Consumer.Persist
import Mathlib.Data.Finset.Basic

/-!
# Is the consumer idempotent under redelivery?

Delivery is at least once, so a message may come again after its order was cancelled, or after
its user cancelled and bought again. `createOrders` verifies a batch that repeats a stored order
id by asking for the newest *live* order of each user, not for the order id: a redelivered
message of a cancelled order finds no live order and fails the whole batch
(`redelivery_after_cancel_fails`).

`persisted_without_redeliveries_iff` is the exact condition under which a batch persists what it
would persist without its redelivered messages: either the rest of the batch is refused in any
case (`RefusedAnyway`), or in every voucher group with a redelivered message every order is the
newest live order of its user once the group's fresh orders are there (`OwnOrdersNewest`). In
particular a batch of redelivered messages only is ignored iff all their orders are still the
newest live ones.
-/

namespace Hmdp.Consumer

open Hmdp.Lib Hmdp.Model

variable {tx : Transaction} {db : Db} {messages : List SeckillOrderMessage}

/-! ## Redelivered messages -/

/-- A row created from the same message exists, whatever its status. -/
def redelivered (db : Db) (m : SeckillOrderMessage) : Bool :=
  match m.draft with
  | none => false
  | some o => db.orders.rows.any fun r =>
    decide (r.id = o.id ∧ r.userId = o.userId ∧ r.voucherId = o.voucherId)

/-- The batch without its redelivered messages. -/
def newMessages (db : Db) (messages : List SeckillOrderMessage) : List SeckillOrderMessage :=
  messages.filter fun m => !redelivered db m

/-- What a transaction leaves in `tb_voucher_order` and `tb_seckill_voucher`; `none` is the
rollback. -/
def persisted (r : Except ConsumerError (List OrderDraft × Db)) :
    Option (Finset VoucherOrder × (VoucherId → Option ℤ)) :=
  match r with
  | .ok (_, db) => some (db.orders.rows.toFinset, db.stock)
  | .error _ => none

/-- The new messages alone are refused: they are not well formed, one has the order id of a row
of another message, or a stock does not cover them. -/
def RefusedAnyway (db : Db) (messages : List SeckillOrderMessage) : Prop :=
  ¬WellFormed (newMessages db messages) ∨
    (∃ o ∈ drafts (newMessages db messages), db.hasOrder o.id = true) ∨
    ∃ v, freshOrders db (groupOf (uniqueOrders (newMessages db messages)) v) ≠ [] ∧
      ∀ s, db.stock v = some s →
        s < (freshOrders db (groupOf (uniqueOrders (newMessages db messages)) v)).length

/-- In a voucher group with a stored order id, every order is the newest live order of its user
once the group's fresh orders are in the table. -/
def OwnOrdersNewest (tx : Transaction) (db : Db) (messages : List SeckillOrderMessage) : Prop :=
  ∀ v, (∃ o ∈ groupOf (uniqueOrders messages) v, db.hasOrder o.id = true) →
    ∀ o ∈ groupOf (uniqueOrders messages) v,
      selectOrderId tx.pick o.userId o.voucherId
        (db.orders.rows ++ groupRows tx db (uniqueOrders messages) v) = some o.id

theorem redelivered_iff {m : SeckillOrderMessage} {o : OrderDraft} (h : m.draft = some o) :
    redelivered db m = true ↔ ∃ r ∈ db.orders.rows,
      r.id = o.id ∧ r.userId = o.userId ∧ r.voucherId = o.voucherId := by
  simp [redelivered, h]

theorem drafts_newMessages_subset {o : OrderDraft} (h : o ∈ drafts (newMessages db messages)) :
    o ∈ drafts messages := by
  obtain ⟨m, hm, ho⟩ := mem_drafts.mp h
  exact mem_drafts.mpr ⟨m, (List.mem_filter.mp hm).1, ho⟩

theorem wellFormed_newMessages (h : WellFormed messages) :
    WellFormed (newMessages db messages) where
  complete m hm := h.complete m (List.mem_filter.mp hm).1
  consistent a ha b hb hab :=
    h.consistent a (drafts_newMessages_subset ha) b (drafts_newMessages_subset hb) hab

/-! ## The fresh orders of a batch -/

/-- **A message with the order id of another message's row is never accepted**: the row that
`selectOrderId` would have to return is not of its user and voucher. -/
theorem not_accepted_of_conflict {m : SeckillOrderMessage} {o : OrderDraft} (hm : m ∈ messages)
    (hd : m.draft = some o) (hnew : redelivered db m = false) (hrow : db.hasOrder o.id = true) :
    ¬Accepted tx db messages := by
  intro ha
  obtain ⟨p, hp, hid⟩ := exists_uniqueOrder (mem_drafts.mpr ⟨m, hm, hd⟩)
  have hag : p.agrees o := ha.wellFormed.consistent p (mem_drafts_of_mem_uniqueOrders hp) o
    (mem_drafts.mpr ⟨m, hm, hd⟩) hid
  have hpg : p ∈ groupOf (uniqueOrders messages) p.voucherId := mem_groupOf.mpr ⟨hp, rfl⟩
  have hprow : db.hasOrder p.id = true := by rw [hid]; exact hrow
  have hsel := (ha.groupOk p.voucherId).verified ⟨p, hpg, hprow⟩ p hpg
  obtain ⟨r, hr, hrid⟩ := Option.map_eq_some_iff.mp hsel
  obtain ⟨hr, hru, hrv, -⟩ := mem_liveOrders.mp (tx.pick.mem hr)
  rcases List.mem_append.mp hr with hr | hr
  · have : redelivered db m = true :=
      (redelivered_iff hd).mpr ⟨r, hr, hrid.trans hid, hru.trans hag.2, hrv.trans hag.1⟩
    rw [hnew] at this
    exact absurd this (by simp)
  · obtain ⟨q, -, -, hq, rfl⟩ := mem_groupRows.mp hr
    have hqp : q.id = p.id := hrid
    rw [hqp, hprow] at hq
    exact absurd hq (by simp)

/-- The fresh orders of a batch are those of its new messages. -/
theorem freshOrders_uniqueOrders
    (hnew : ∀ o ∈ drafts (newMessages db messages), db.hasOrder o.id = false) :
    freshOrders db (uniqueOrders messages) =
      freshOrders db (uniqueOrders (newMessages db messages)) := by
  have hfilter : ∀ ms : List SeckillOrderMessage, freshOrders db (uniqueOrders ms) =
      newRows (sameKey OrderDraft.id) [] (freshOrders db (drafts ms)) := fun ms =>
    filter_newRows_key (fun o => !db.hasOrder o) [] (drafts ms)
  rw [hfilter, hfilter]
  congr 1
  unfold drafts newMessages at *
  induction messages with
  | nil => rfl
  | cons m ms ih =>
    cases hd : m.draft with
    | none =>
      have hr : redelivered db m = false := by simp [redelivered, hd]
      rw [List.filter_cons_of_pos (by simp [hr])] at hnew ⊢
      rw [List.filterMap_cons_none hd] at hnew ⊢
      rw [List.filterMap_cons_none hd]
      exact ih hnew
    | some o =>
      rw [List.filterMap_cons_some hd]
      by_cases hr : redelivered db m = true
      · -- a redelivered message is not fresh
        obtain ⟨r, hrow, hid, -, -⟩ := (redelivered_iff hd).mp hr
        have ho : db.hasOrder o.id = true := Db.hasOrder_iff.mpr ⟨r, hrow, hid⟩
        rw [List.filter_cons_of_neg (by simp [hr])] at hnew ⊢
        rw [freshOrders, List.filter_cons_of_neg (by simp [ho])]
        exact ih hnew
      · rw [List.filter_cons_of_pos (by simpa using hr)] at hnew ⊢
        rw [List.filterMap_cons_some hd] at hnew ⊢
        have ho := hnew o List.mem_cons_self
        rw [freshOrders, freshOrders, List.filter_cons_of_pos (by simp [ho]),
          List.filter_cons_of_pos (by simp [ho])]
        congr 1
        exact ih fun x hx => hnew x (List.mem_cons_of_mem o hx)

theorem freshOrders_groupOf (orders : List OrderDraft) (v : VoucherId) :
    freshOrders db (groupOf orders v) = groupOf (freshOrders db orders) v :=
  List.filter_comm _ _ _

/-! ## Acceptance -/

/-- A batch that is refused without its redelivered messages is refused with them. -/
theorem RefusedAnyway.not_accepted (h : RefusedAnyway db messages) :
    ¬Accepted tx db messages ∧ ¬Accepted tx db (newMessages db messages) := by
  by_cases hconf : ∃ o ∈ drafts (newMessages db messages), db.hasOrder o.id = true
  · obtain ⟨o, ho, hrow⟩ := hconf
    obtain ⟨m, hm, hd⟩ := mem_drafts.mp ho
    obtain ⟨hm', hr⟩ := List.mem_filter.mp hm
    have hr : redelivered db m = false := by simpa using hr
    exact ⟨not_accepted_of_conflict hm' hd hr hrow, not_accepted_of_conflict hm hd hr hrow⟩
  have hnew : ∀ o ∈ drafts (newMessages db messages), db.hasOrder o.id = false := by
    intro o ho
    by_contra hc
    exact hconf ⟨o, ho, by simpa using hc⟩
  rcases h with hwf | hconf' | ⟨v, hne, hlt⟩
  · exact ⟨fun ha => hwf (wellFormed_newMessages ha.wellFormed), fun ha => hwf ha.wellFormed⟩
  · exact absurd hconf' hconf
  · have hfresh : freshOrders db (groupOf (uniqueOrders messages) v) =
        freshOrders db (groupOf (uniqueOrders (newMessages db messages)) v) := by
      rw [freshOrders_groupOf, freshOrders_groupOf, freshOrders_uniqueOrders hnew]
    constructor
    · intro ha
      obtain ⟨s, hs, hle⟩ := (ha.groupOk v).stocked (by rwa [hfresh])
      rw [hfresh] at hle
      exact absurd hle (not_le.mpr (hlt s hs))
    · intro ha
      obtain ⟨s, hs, hle⟩ := (ha.groupOk v).stocked hne
      exact absurd hle (not_le.mpr (hlt s hs))

/-- The rest of a batch that is not refused: fresh order ids only, and covered by the stocks. -/
theorem not_refusedAnyway (h : ¬RefusedAnyway db messages) :
    WellFormed (newMessages db messages) ∧
      (∀ o ∈ drafts (newMessages db messages), db.hasOrder o.id = false) ∧
      ∀ v, freshOrders db (groupOf (uniqueOrders (newMessages db messages)) v) ≠ [] →
        ∃ s, db.stock v = some s ∧
          ((freshOrders db (groupOf (uniqueOrders (newMessages db messages)) v)).length : ℤ) ≤
            s := by
  refine ⟨?_, ?_, ?_⟩
  · by_contra hc
    exact h (Or.inl hc)
  · intro o ho
    by_contra hc
    exact h (Or.inr (Or.inl ⟨o, ho, by simpa using hc⟩))
  · intro v hne
    by_contra hc
    refine h (Or.inr (Or.inr ⟨v, hne, fun s hs => ?_⟩))
    by_contra hlt
    exact hc ⟨s, hs, not_lt.mp hlt⟩

/-- The whole batch is well formed when its new messages are: a redelivered message agrees with
its row, and no new message has the order id of a row. -/
theorem wellFormed_of_newMessages (hwf : WellFormed (newMessages db messages))
    (hnew : ∀ o ∈ drafts (newMessages db messages), db.hasOrder o.id = false) :
    WellFormed messages := by
  have hcase : ∀ {m : SeckillOrderMessage} {o : OrderDraft}, m ∈ messages → m.draft = some o →
      (o ∈ drafts (newMessages db messages)) ∨
        ∃ r ∈ db.orders.rows, r.id = o.id ∧ r.userId = o.userId ∧ r.voucherId = o.voucherId := by
    intro m o hm hd
    by_cases hr : redelivered db m = true
    · exact Or.inr ((redelivered_iff hd).mp hr)
    · exact Or.inl (mem_drafts.mpr ⟨m, List.mem_filter.mpr ⟨hm, by simpa using hr⟩, hd⟩)
  constructor
  · intro m hm
    by_cases hr : redelivered db m = true
    · cases hd : m.draft with
      | none => simp [redelivered, hd] at hr
      | some o => rfl
    · exact hwf.complete m (List.mem_filter.mpr ⟨hm, by simpa using hr⟩)
  · intro a ha b hb hab
    obtain ⟨m, hm, hma⟩ := mem_drafts.mp ha
    obtain ⟨n, hn, hnb⟩ := mem_drafts.mp hb
    rcases hcase hm hma with ha' | ⟨r, hr, hrid, hru, hrv⟩
    · rcases hcase hn hnb with hb' | ⟨s, hs, hsid, -, -⟩
      · exact hwf.consistent a ha' b hb' hab
      · exact absurd (hsid.trans hab.symm) (Db.not_hasOrder_iff.mp (hnew a ha') s hs)
    · rcases hcase hn hnb with hb' | ⟨s, hs, hsid, hsu, hsv⟩
      · exact absurd (hrid.trans hab) (Db.not_hasOrder_iff.mp (hnew b hb') r hr)
      · have hrs : r = s := db.order_unique hr hs (hrid.trans (hab.trans hsid.symm))
        subst hrs
        exact ⟨hrv.symm.trans hsv, hru.symm.trans hsu⟩

/-- The new messages alone are accepted unless they are refused anyway. -/
theorem accepted_newMessages (h : ¬RefusedAnyway db messages) :
    Accepted tx db (newMessages db messages) := by
  obtain ⟨hwf, hnew, hstock⟩ := not_refusedAnyway h
  refine ⟨hwf, fun v => ⟨fun ⟨o, ho, hrow⟩ => ?_, hstock v⟩⟩
  have := hnew o (mem_drafts_of_mem_uniqueOrders (mem_groupOf.mp ho).1)
  rw [hrow] at this
  exact absurd this (by simp)

/-- **The whole batch is accepted iff its own orders are the newest.** -/
theorem accepted_iff (h : ¬RefusedAnyway db messages) :
    Accepted tx db messages ↔ OwnOrdersNewest tx db messages := by
  obtain ⟨hwf, hnew, hstock⟩ := not_refusedAnyway h
  constructor
  · intro ha v hex
    exact (ha.groupOk v).verified hex
  · intro hown
    refine ⟨wellFormed_of_newMessages hwf hnew, fun v => ⟨hown v, ?_⟩⟩
    rw [freshOrders_groupOf, freshOrders_uniqueOrders hnew, ← freshOrders_groupOf]
    exact hstock v

/-! ## The effect -/

theorem persisted_eq_none_iff {ms : List SeckillOrderMessage} :
    persisted (createOrders tx ms db) = none ↔ ¬Accepted tx db ms := by
  rw [← createOrders_ok_iff]
  cases h : createOrders tx ms db with
  | ok r => simp [persisted]
  | error e => simp [persisted]

/-- The effect of an accepted batch depends on its fresh orders only. -/
theorem persisted_congr {ms ns : List SeckillOrderMessage} (hm : Accepted tx db ms)
    (hn : Accepted tx db ns)
    (hfresh : freshOrders db (uniqueOrders ms) = freshOrders db (uniqueOrders ns)) :
    persisted (createOrders tx ms db) = persisted (createOrders tx ns db) := by
  obtain ⟨⟨os, d⟩, hd⟩ := createOrders_ok_iff.mpr hm
  obtain ⟨⟨ps, e⟩, he⟩ := createOrders_ok_iff.mpr hn
  have hrows : d.orders.rows.toFinset = e.orders.rows.toFinset := by
    ext r
    rw [List.mem_toFinset, List.mem_toFinset, createOrders_mem_rows hd, createOrders_mem_rows he,
      hfresh]
  have hstock : d.stock = e.stock := by
    funext v
    rw [createOrders_stock hd, createOrders_stock he, freshOrders_groupOf, freshOrders_groupOf,
      hfresh]
  rw [hd, he]
  simp only [persisted, hrows, hstock]

/-- **When redelivered messages do no harm**: a batch persists exactly what it persists without
its redelivered messages iff the rest is refused anyway, or every order of a voucher group with
a stored order id is the newest live order of its user. -/
theorem persisted_without_redeliveries_iff (tx : Transaction) (db : Db)
    (messages : List SeckillOrderMessage) :
    persisted (createOrders tx messages db) =
        persisted (createOrders tx (newMessages db messages) db) ↔
      RefusedAnyway db messages ∨ OwnOrdersNewest tx db messages := by
  by_cases href : RefusedAnyway db messages
  · have href' : ¬Accepted tx db messages ∧ ¬Accepted tx db (newMessages db messages) :=
      href.not_accepted
    obtain ⟨hb, hn⟩ := href'
    rw [persisted_eq_none_iff.mpr hb, persisted_eq_none_iff.mpr hn]
    exact ⟨fun _ => Or.inl href, fun _ => rfl⟩
  · have hn : Accepted tx db (newMessages db messages) := accepted_newMessages href
    constructor
    · intro heq
      refine Or.inr ((accepted_iff href).mp ?_)
      by_contra hb
      rw [persisted_eq_none_iff.mpr hb] at heq
      exact persisted_eq_none_iff.mp heq.symm hn
    · rintro (hc | hown)
      · exact absurd hc href
      · have hb := (accepted_iff href).mpr hown
        exact persisted_congr hb hn (freshOrders_uniqueOrders (not_refusedAnyway href).2.1)

/-! ### A redelivery after a cancellation -/

/-- One unit of voucher 7 in stock, and the first message of order 1 consumed. -/
def bought : Db :=
  let start : Db := { Db.empty with stock := fun v => if v = 7 then some 1 else none }
  match createOrders ⟨NewestFirst.first, fun _ => 0, 0⟩
    [⟨none, none, some 1, some 7, some 5, some false, 0⟩] start with
  | .ok (_, db) => db
  | .error _ => start

/-- And then cancelled by its user. -/
def boughtAndCancelled : Db := (adjustStock 7 1 (cancelActiveOrder 1 5 bought).2).2

/-- **The law fails**: the message of order 1, delivered again after its order was cancelled,
makes `createOrders` throw, where the batch without it (no message) returns normally. -/
theorem redelivery_after_cancel_fails :
    ¬∀ (tx : Transaction) (db : Db) (messages : List SeckillOrderMessage),
      persisted (createOrders tx messages db) =
        persisted (createOrders tx (newMessages db messages) db) := by
  intro h
  have heq := h ⟨NewestFirst.first, fun _ => 0, 0⟩ boughtAndCancelled
    [⟨none, none, some 1, some 7, some 5, some false, 0⟩]
  exact absurd (congrArg Option.isSome heq) (by decide +kernel)

end Hmdp.Consumer
