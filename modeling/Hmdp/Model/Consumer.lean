import Hmdp.Model.Mysql
import Mathlib.Data.List.Sort

/-!
# The order consumer

`SeckillOrderConsumerService.createOrders` and `VoucherOrderPersistenceServiceImpl`, one MySQL
transaction: an exception rolls everything back, so the result is either an error or the returned
orders with the new state. What the database decides by itself (which of several newest rows a
`LIMIT 1` returns, the times it stamps) comes in through `Transaction`.

The orders of a batch are the distinct orders of its messages in the order of their first
message (`uniqueOrders`), handled voucher by voucher.

* `collect_ok_iff`: the message loop succeeds iff every message is complete and the messages of
  one order id agree.
* `collect_uniqueOrders`: and then it has collected the distinct orders of the batch.
-/

namespace Hmdp.Model

open Hmdp.Lib

/-! ## The transaction -/

/-- The exceptions of the transaction, with the values their texts carry. -/
inductive ConsumerError where
  /-- `Incomplete seckill order message` -/
  | incompleteMessage
  /-- `Same order id maps to different seckill messages, orderId=` -/
  | conflictingMessages (orderId : OrderId)
  /-- `IllegalStateException` of `verifyIgnoredOrdersExist` -/
  | missingOrder (orderId : OrderId)
  /-- `OrderIdConflictException` -/
  | orderIdConflict (orderId existingOrderId : OrderId)
  /-- `DatabaseStockMismatchException` -/
  | databaseStockMismatch (voucherId : VoucherId) (amount : ℕ)
  deriving DecidableEq

/-- What the database supplies to one transaction. -/
structure Transaction where
  pick : NewestFirst
  /-- `CURRENT_TIMESTAMP` of the insert of a voucher's group -/
  insertTime : VoucherId → Time
  /-- `NOW()` of the completion -/
  completeTime : Time

/-- The order of a message; `none` when `validate` throws. A null message fails the same check
as one without an order id. -/
def SeckillOrderMessage.draft (m : SeckillOrderMessage) : Option OrderDraft :=
  match m.orderId, m.voucherId, m.userId with
  | some o, some v, some u => some ⟨o, v, u, decide (m.autoIssued = some true)⟩
  | _, _, _ => none

/-- The two `LinkedHashMap`s of `createOrders`: keys in insertion order. -/
structure Collected where
  uniqueOrders : List OrderDraft
  outboxIdsByOrder : List (OrderId × ℕ)

/-- `putIfAbsent` of an order and of its outbox id. -/
def Collected.put (acc : Collected) (order : OrderDraft) (outboxId : Option ℕ) : Collected where
  uniqueOrders := insertIgnore (sameKey OrderDraft.id) acc.uniqueOrders [order]
  outboxIdsByOrder :=
    match outboxId with
    | none => acc.outboxIdsByOrder
    | some i => insertIgnore (sameKey Prod.fst) acc.outboxIdsByOrder [(order.id, i)]

/-- The message loop of `createOrders`. -/
def collect : Collected → List SeckillOrderMessage → Except ConsumerError Collected
  | acc, [] => .ok acc
  | acc, m :: ms =>
    match m.draft with
    | none => .error .incompleteMessage
    | some order =>
      match acc.uniqueOrders.find? fun p => decide (p.id = order.id) with
      | none => collect (acc.put order m.outboxId) ms
      | some previous =>
        if previous.voucherId ≠ order.voucherId ∨ previous.userId ≠ order.userId then
          .error (.conflictingMessages order.id)
        else collect (acc.put order m.outboxId) ms

/-- `verifyIgnoredOrdersExist`. -/
def verifyIgnoredOrdersExist (pick : NewestFirst) (rows : List VoucherOrder) :
    List OrderDraft → Except ConsumerError Unit
  | [] => .ok ()
  | order :: orders =>
    match selectOrderId pick order.userId order.voucherId rows with
    | none => .error (.missingOrder order.id)
    | some existing =>
      if order.id ≠ existing then .error (.orderIdConflict order.id existing)
      else verifyIgnoredOrdersExist pick rows orders

/-- The group of a voucher in `ordersByVoucher`. -/
def groupOf (orders : List OrderDraft) (v : VoucherId) : List OrderDraft :=
  orders.filter fun o => decide (o.voucherId = v)

/-- The keys of `ordersByVoucher` in the order of their first order. -/
def voucherIds (orders : List OrderDraft) : List VoucherId :=
  insertIgnore (sameKey id) [] (orders.map OrderDraft.voucherId)

/-- The body of the loop over `ordersByVoucher`. -/
def persistGroup (tx : Transaction) (v : VoucherId) (orders : List OrderDraft) (db : Db) :
    Except ConsumerError Db :=
  let inserted := batchInsertIgnore (tx.insertTime v) orders db
  let verified :=
    if inserted.1 < orders.length then
      verifyIgnoredOrdersExist tx.pick inserted.2.orders.rows orders
    else .ok ()
  match verified with
  | .error e => .error e
  | .ok () =>
    if inserted.1 = 0 then .ok inserted.2
    else
      let updated := decrementStock v inserted.1 inserted.2
      if updated.1 ≠ 1 then .error (.databaseStockMismatch v inserted.1) else .ok updated.2

/-- The loop over `ordersByVoucher`. -/
def persistGroups (tx : Transaction) (orders : List OrderDraft) :
    List VoucherId → Db → Except ConsumerError Db
  | [], db => .ok db
  | v :: vs, db =>
    match persistGroup tx v (groupOf orders v) db with
    | .error e => .error e
    | .ok db' => persistGroups tx orders vs db'

/-- `createVoucherOrders`; a draft is complete by its type, so `validateOrder` passes. -/
def createVoucherOrders (tx : Transaction) (orders : List OrderDraft) (db : Db) :
    Except ConsumerError Db :=
  persistGroups tx orders (voucherIds orders) db

/-- The end of `createOrders`: complete the outbox rows by their ids, or by the order ids where a
message lacks its outbox id. -/
def completeOutbox (tx : Transaction) (c : Collected) (db : Db) : Db :=
  if c.outboxIdsByOrder.length = c.uniqueOrders.length then
    (markCompletedBatchByIds ((c.outboxIdsByOrder.map Prod.snd).insertionSort (· ≤ ·))
      tx.completeTime db).2
  else
    (markCompletedBatch ((c.uniqueOrders.map OrderDraft.id).insertionSort (· ≤ ·))
      tx.completeTime db).2

/-- `createOrders`. -/
def createOrders (tx : Transaction) (messages : List SeckillOrderMessage) (db : Db) :
    Except ConsumerError (List OrderDraft × Db) :=
  if messages = [] then .ok ([], db)
  else
    match collect ⟨[], []⟩ messages with
    | .error e => .error e
    | .ok c =>
      match createVoucherOrders tx c.uniqueOrders db with
      | .error e => .error e
      | .ok db' => .ok (c.uniqueOrders, completeOutbox tx c db')

/-! ## The message loop -/

/-- The orders of the complete messages. -/
def drafts (messages : List SeckillOrderMessage) : List OrderDraft :=
  messages.filterMap SeckillOrderMessage.draft

/-- The distinct orders of a batch. -/
def uniqueOrders (messages : List SeckillOrderMessage) : List OrderDraft :=
  insertIgnore (sameKey OrderDraft.id) [] (drafts messages)

/-- Two messages ask for the same voucher and user. -/
def OrderDraft.agrees (a b : OrderDraft) : Prop := a.voucherId = b.voucherId ∧ a.userId = b.userId

/-- Every message is complete, and those of one order id agree. -/
structure WellFormed (messages : List SeckillOrderMessage) : Prop where
  complete : ∀ m ∈ messages, m.draft.isSome
  consistent : ∀ a ∈ drafts messages, ∀ b ∈ drafts messages, a.id = b.id → a.agrees b

theorem drafts_cons {m : SeckillOrderMessage} {o : OrderDraft} (h : m.draft = some o)
    (ms : List SeckillOrderMessage) : drafts (m :: ms) = o :: drafts ms := by
  rw [drafts, List.filterMap_cons_some h]
  rfl

theorem mem_drafts {messages : List SeckillOrderMessage} {o : OrderDraft} :
    o ∈ drafts messages ↔ ∃ m ∈ messages, m.draft = some o :=
  List.mem_filterMap

theorem uniqueOrders_nodup (messages : List SeckillOrderMessage) :
    ((uniqueOrders messages).map OrderDraft.id).Nodup :=
  nodup_insertIgnore List.nodup_nil

theorem mem_drafts_of_mem_uniqueOrders {messages : List SeckillOrderMessage} {o : OrderDraft}
    (h : o ∈ uniqueOrders messages) : o ∈ drafts messages :=
  mem_rows_of_mem_newRows (by simpa [uniqueOrders, insertIgnore] using h)

/-- Every draft's order id is that of a distinct order. -/
theorem exists_uniqueOrder {messages : List SeckillOrderMessage} {o : OrderDraft}
    (h : o ∈ drafts messages) : ∃ p ∈ uniqueOrders messages, p.id = o.id := by
  have hid : o.id ∈ (uniqueOrders messages).map OrderDraft.id :=
    insertIgnore_key.mpr (Or.inr (List.mem_map_of_mem h))
  obtain ⟨p, hp, he⟩ := List.mem_map.mp hid
  exact ⟨p, hp, he⟩

/-- The orders put into the map: those already there, then the new ids. -/
theorem put_uniqueOrders (acc : Collected) (o : OrderDraft) (i : Option ℕ)
    (ms : List OrderDraft) :
    insertIgnore (sameKey OrderDraft.id) (acc.put o i).uniqueOrders ms =
      insertIgnore (sameKey OrderDraft.id) acc.uniqueOrders (o :: ms) := by
  rw [insertIgnore_cons]
  simp only [Collected.put, insertIgnore, newRows]
  split <;> simp

theorem put_nodup {acc : Collected} (h : (acc.uniqueOrders.map OrderDraft.id).Nodup)
    (o : OrderDraft) (i : Option ℕ) : ((acc.put o i).uniqueOrders.map OrderDraft.id).Nodup :=
  nodup_insertIgnore h

/-- The loop from any map: it succeeds iff every message is complete and agrees with the order
its id ends up with. -/
theorem collect_ok {c acc : Collected} {ms : List SeckillOrderMessage}
    (hn : (acc.uniqueOrders.map OrderDraft.id).Nodup) (h : collect acc ms = .ok c) :
    (∀ m ∈ ms, m.draft.isSome) ∧
      c.uniqueOrders = insertIgnore (sameKey OrderDraft.id) acc.uniqueOrders (drafts ms) ∧
      ∀ o ∈ drafts ms, ∀ p ∈ c.uniqueOrders, p.id = o.id → p.agrees o := by
  induction ms generalizing acc with
  | nil =>
    cases h
    exact ⟨by simp, by simp [drafts, insertIgnore, newRows], by simp [drafts]⟩
  | cons m ms ih =>
    unfold collect at h
    cases hd : m.draft with
    | none => simp [hd] at h
    | some o =>
      -- the order that the id of `m` ends up with is the one already there, or `o` itself
      obtain ⟨p₀, hp₀, hid₀, hag₀, hrec⟩ : ∃ p₀ ∈ (acc.put o m.outboxId).uniqueOrders,
          p₀.id = o.id ∧ p₀.agrees o ∧ collect (acc.put o m.outboxId) ms = .ok c := by
        simp only [hd] at h
        cases hf : acc.uniqueOrders.find? fun p => decide (p.id = o.id) with
        | none =>
          simp only [hf] at h
          have hany : acc.uniqueOrders.any (sameKey OrderDraft.id o) = false := by
            rw [List.any_eq_false]
            intro p hp
            have := List.find?_eq_none.mp hf p hp
            simp only [decide_eq_true_eq] at this
            simp only [sameKey, decide_eq_true_eq]
            exact fun he => this he.symm
          refine ⟨o, ?_, rfl, ⟨rfl, rfl⟩, h⟩
          simp [Collected.put, insertIgnore, newRows, hany]
        | some p =>
          simp only [hf] at h
          split at h
          · exact absurd h (by simp)
          · rename_i hag
            have hpid : p.id = o.id := by simpa using List.find?_some hf
            refine ⟨p, List.mem_append_left _ (List.mem_of_find?_eq_some hf), hpid, ?_, h⟩
            exact ⟨by_contra fun hne => hag (Or.inl hne), by_contra fun hne => hag (Or.inr hne)⟩
      obtain ⟨hcomplete, horders, hagree⟩ := ih (put_nodup hn o m.outboxId) hrec
      rw [put_uniqueOrders, ← drafts_cons hd] at horders
      have hnodup : (c.uniqueOrders.map OrderDraft.id).Nodup := by
        rw [horders]
        exact nodup_insertIgnore hn
      have hp₀c : p₀ ∈ c.uniqueOrders := by
        rw [horders, drafts_cons hd, ← put_uniqueOrders acc o m.outboxId]
        exact List.mem_append_left _ hp₀
      refine ⟨?_, horders, ?_⟩
      · intro x hx
        rcases List.mem_cons.mp hx with rfl | hx
        · simp [hd]
        · exact hcomplete x hx
      · intro x hx p hp he
        rw [drafts_cons hd] at hx
        rcases List.mem_cons.mp hx with rfl | hx
        · rw [List.inj_on_of_nodup_map hnodup hp hp₀c (he.trans hid₀.symm)]
          exact hag₀
        · exact hagree x hx p hp he

/-- The loop goes through on messages that agree with the orders in the map. -/
theorem collect_of_agrees {ms : List SeckillOrderMessage} {acc : Collected}
    (hc : ∀ m ∈ ms, m.draft.isSome)
    (ha : ∀ p ∈ acc.uniqueOrders ++ drafts ms, ∀ o ∈ drafts ms, p.id = o.id → p.agrees o) :
    ∃ c, collect acc ms = .ok c := by
  induction ms generalizing acc with
  | nil => exact ⟨acc, rfl⟩
  | cons m ms ih =>
    obtain ⟨o, hd⟩ := Option.isSome_iff_exists.mp (hc m List.mem_cons_self)
    rw [drafts_cons hd] at ha
    have hput : ∀ p ∈ (acc.put o m.outboxId).uniqueOrders, p ∈ acc.uniqueOrders ∨ p = o := by
      intro p hp
      rcases List.mem_append.mp hp with hp | hp
      · exact Or.inl hp
      · exact Or.inr (List.mem_singleton.mp (mem_rows_of_mem_newRows hp))
    have hrec := @ih (acc.put o m.outboxId)
      (fun x hx => hc x (List.mem_cons_of_mem _ hx)) (by
        intro p hp x hx he
        refine ha p ?_ x (List.mem_cons_of_mem _ hx) he
        rcases List.mem_append.mp hp with hp | hp
        · rcases hput p hp with hp | rfl
          · exact List.mem_append_left _ hp
          · exact List.mem_append_right _ List.mem_cons_self
        · exact List.mem_append_right _ (List.mem_cons_of_mem _ hp))
    unfold collect
    simp only [hd]
    cases hf : acc.uniqueOrders.find? fun p => decide (p.id = o.id) with
    | none => exact hrec
    | some p =>
      have hpid : p.id = o.id := by simpa using List.find?_some hf
      have hag := ha p (List.mem_append_left _ (List.mem_of_find?_eq_some hf)) o
        List.mem_cons_self hpid
      simp only [hag.1, hag.2, ne_eq, not_true_eq_false, or_self, if_false]
      exact hrec

/-- **The message loop succeeds iff the batch is well formed**, with its distinct orders. -/
theorem collect_ok_iff {messages : List SeckillOrderMessage} :
    (∃ c, collect ⟨[], []⟩ messages = .ok c) ↔ WellFormed messages := by
  constructor
  · rintro ⟨c, h⟩
    obtain ⟨hcomplete, horders, hagree⟩ := @collect_ok c ⟨[], []⟩ messages List.nodup_nil h
    refine ⟨hcomplete, fun a ha b hb hab => ?_⟩
    obtain ⟨p, hp, hpa⟩ := exists_uniqueOrder ha
    have hpc : p ∈ c.uniqueOrders := by rw [horders]; exact hp
    have h1 := hagree a ha p hpc hpa
    have h2 := hagree b hb p hpc (hpa.trans hab)
    exact ⟨h1.1.symm.trans h2.1, h1.2.symm.trans h2.2⟩
  · intro h
    exact collect_of_agrees h.complete fun p hp o ho he =>
      h.consistent p (by simpa using hp) o ho he

theorem collect_uniqueOrders {messages : List SeckillOrderMessage} {c : Collected}
    (h : collect ⟨[], []⟩ messages = .ok c) : c.uniqueOrders = uniqueOrders messages :=
  (@collect_ok c ⟨[], []⟩ messages List.nodup_nil h).2.1

/-- An outbox id in the map is that of a message of the order. -/
theorem collect_outboxIds {c : Collected} {ms : List SeckillOrderMessage} :
    ∀ {acc : Collected}, collect acc ms = .ok c → ∀ p ∈ c.outboxIdsByOrder,
      p ∈ acc.outboxIdsByOrder ∨ ∃ m ∈ ms, m.orderId = some p.1 ∧ m.outboxId = some p.2 := by
  induction ms with
  | nil =>
    intro acc h p hp
    cases h
    exact Or.inl hp
  | cons m ms ih =>
    intro acc h p hp
    obtain ⟨o, hd, hrec⟩ : ∃ o, m.draft = some o ∧ collect (acc.put o m.outboxId) ms = .ok c := by
      unfold collect at h
      split at h
      · exact absurd h (by simp)
      · rename_i o hd
        split at h
        · exact ⟨o, hd, h⟩
        · split at h
          · exact absurd h (by simp)
          · exact ⟨o, hd, h⟩
    have hid : m.orderId = some o.id := by
      unfold SeckillOrderMessage.draft at hd
      split at hd
      · rename_i ho _ _
        cases hd
        exact ho
      · exact absurd hd (by simp)
    rcases ih hrec p hp with hput | ⟨x, hx, hxp⟩
    · unfold Collected.put at hput
      cases hi : m.outboxId with
      | none => exact Or.inl (by simpa [hi] using hput)
      | some i =>
        simp only [hi] at hput
        rcases List.mem_append.mp hput with hput | hput
        · exact Or.inl hput
        · rw [List.mem_singleton.mp (mem_rows_of_mem_newRows hput)]
          exact Or.inr ⟨m, List.mem_cons_self, hid, hi⟩
    · exact Or.inr ⟨x, List.mem_cons_of_mem _ hx, hxp⟩

/-- The loop throws no stock error. -/
theorem collect_ne_mismatch {v : VoucherId} {n : ℕ} {ms : List SeckillOrderMessage}
    {acc : Collected} : collect acc ms ≠ .error (.databaseStockMismatch v n) := by
  induction ms generalizing acc with
  | nil => simp [collect]
  | cons m ms ih =>
    unfold collect
    split
    · simp
    · split
      · exact ih
      · split
        · simp
        · exact ih

end Hmdp.Model
