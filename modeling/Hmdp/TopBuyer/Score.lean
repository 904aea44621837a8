import Hmdp.Consumer.Effect
import Hmdp.Lib.InFlight
import Hmdp.Lib.Machine
import Hmdp.Model.Cancel
import Hmdp.Model.TopBuyer

/-!
# The scores of the top buyers count orders

The consumer persists orders and calls `recordSuccessfulOrder` for each order of its batch, again
after a redelivery; a committed cancellation calls `rollbackCancelledOrder`. The calls run at any
later time, in any order. The consumer's order has no `createTime`, so its day is that of the call,
while the day of a cancelled order is that of its row.

* `Tracked`: what the scores of a user sum to, with the orders not yet recorded, the rollbacks not
  yet run, and those that found no score.
* **`score_counts_iff`**: with no call pending, the sum is the number of the user's orders of the
  shop that are not cancelled, if and only if every rollback of such an order found a score.
* `late_record_leaves_score`: an order recorded after midnight and then cancelled keeps its score.
-/

namespace Hmdp.TopBuyer

open Hmdp.Lib Hmdp.Model Hmdp.Consumer

/-! ## The machine -/

/-- The orders, the scores, and the calls after a commit that are still to come. -/
structure State where
  db : Db
  store : TopBuyers
  /-- the calls of `recordSuccessfulOrder` to come -/
  records : List OrderDraft
  /-- the calls of `rollbackCancelledOrder` to come -/
  rollbacks : List VoucherOrder

/-- The commits of orders and cancellations, and the calls that follow them. -/
inductive Action where
  /-- `onMessage`: a batch is persisted and acknowledged -/
  | consume (tx : Transaction) (messages : List SeckillOrderMessage)
  | record (order : OrderDraft) (now : Time)
  /-- `cancelVoucherOrder`, committed -/
  | cancel (pick : NewestFirst) (userId : UserId) (voucherId : VoucherId)
  | rollback (order : VoucherOrder) (now : Time)

/-- Nothing recorded yet. -/
def State.init (db : Db) : State := ⟨db, TopBuyers.empty, [], []⟩

/-- No call is pending. -/
def State.Quiet (s : State) : Prop := s.records = [] ∧ s.rollbacks = []

/-- One step; `none` where it is not possible. -/
def step (shops : VoucherShops) (s : State) : Action → Option State
  | .consume tx messages =>
    match createOrders tx messages s.db with
    | .error _ => none
    | .ok (orders, db) => some { s with db := db, records := s.records ++ orders }
  | .record order now =>
    if order ∈ s.records then
      some { s with
        store := recordSuccessfulOrder true shops now order.marketing s.store
        records := s.records.erase order }
    else none
  | .cancel pick userId voucherId =>
    (selectActiveOrder pick userId voucherId s.db).bind fun order =>
      (cancelInTransaction order s.db).map fun db =>
        { s with db := db, rollbacks := s.rollbacks ++ [{ order with status := .cancelled }] }
  | .rollback order now =>
    if order ∈ s.rollbacks then
      some { s with
        store := rollbackCancelledOrder true shops now order.marketing s.store
        rollbacks := s.rollbacks.erase order }
    else none

/-! ## What is counted -/

/-- The user's score of a day. -/
def scoreOf (userId : UserId) (daily : ZSet Text) : ℤ := (daily.score userId.toText).getD 0

/-- An order of the user for a voucher of the shop. -/
def OfBuyer (shops : VoucherShops) (shopId : ShopId) (userId u : UserId) (v : VoucherId) : Prop :=
  u = userId ∧ resolveShopId shops v = some shopId

instance (shops : VoucherShops) (shopId : ShopId) (userId u : UserId) (v : VoucherId) :
    Decidable (OfBuyer shops shopId userId u v) :=
  inferInstanceAs (Decidable (_ ∧ _))

/-- The user's persisted orders of the shop that are not cancelled. -/
def liveOrdersOf (shops : VoucherShops) (shopId : ShopId) (userId : UserId) (db : Db) : ℕ :=
  db.orders.rows.countP fun r => decide (OfBuyer shops shopId userId r.userId r.voucherId) && r.live

/-- **The condition on a step**: a rollback of an order of the user finds a score of his on the
day of the order. -/
def Found (shops : VoucherShops) (shopId : ShopId) (userId : UserId) (s : State) : Action → Prop
  | .rollback order _ =>
    OfBuyer shops shopId userId order.userId order.voucherId →
      ((s.store.daily shopId (toLocalDate order.createTime)).score userId.toText).isSome
  | _ => True

instance (shops : VoucherShops) (shopId : ShopId) (userId : UserId) (s : State) (a : Action) :
    Decidable (Found shops shopId userId s a) := by
  cases a <;> unfold Found <;> infer_instance

variable {shops : VoucherShops} {shopId : ShopId} {userId : UserId}

/-! ## The scripts -/

theorem setDaily_sum {s : TopBuyers} {n : ℤ} (h : InFlight (scoreOf userId) (s.daily shopId) n)
    (shop : ShopId) (day : Day) (z : ZSet Text) :
    InFlight (scoreOf userId) ((s.setDaily shop day z).daily shopId)
      (if shop = shopId then n - scoreOf userId (s.daily shopId day) + scoreOf userId z
        else n) := by
  unfold TopBuyers.setDaily
  by_cases hshop : shop = shopId
  · subst hshop
    rw [if_pos rfl]
    simpa using h.update day z
  · rw [if_neg hshop]
    simpa [Function.update_of_ne (Ne.symm hshop)] using h

theorem scoreOf_zincrby (z : ZSet Text) (increment : ℤ) (u : UserId) :
    scoreOf userId (z.zincrby increment u.toText) =
      scoreOf userId z + if u = userId then increment else 0 := by
  unfold scoreOf
  rw [ZSet.score_zincrby]
  by_cases h : u = userId
  · simp [h]
  · have hne : userId.toText ≠ u.toText := fun heq => h (Long.toText_injective heq).symm
    rw [if_neg h, if_neg hne, add_zero]

/-- The user's scores of the shop are positive. -/
def Positive (shopId : ShopId) (userId : UserId) (s : TopBuyers) : Prop :=
  ∀ day x, (s.daily shopId day).score userId.toText = some x → 0 < x

theorem Positive.setDaily {s : TopBuyers} (h : Positive shopId userId s) {shop : ShopId}
    {day : Day} {z : ZSet Text}
    (hz : shop = shopId → ∀ x, z.score userId.toText = some x → 0 < x) :
    Positive shopId userId (s.setDaily shop day z) := by
  intro d x hx
  by_cases hshop : shop = shopId
  · subst hshop
    by_cases hd : d = day
    · subst hd
      exact hz rfl x (by simpa [TopBuyers.setDaily] using hx)
    · exact h d x (by simpa [TopBuyers.setDaily, hd] using hx)
  · exact h d x (by simpa [TopBuyers.setDaily, Function.update_of_ne (Ne.symm hshop)] using hx)

/-- What recording does to the user's scores. -/
theorem recordLua_sum {s : TopBuyers} {n : ℤ} (h : InFlight (scoreOf userId) (s.daily shopId) n)
    (hpos : Positive shopId userId s) (shop : ShopId) (orderId : OrderId) (day : Day) (u : UserId) :
    InFlight (scoreOf userId) ((recordLua shop orderId day u s).2.daily shopId)
        (n + if (shop, orderId) ∉ s.recorded ∧ u = userId ∧ shop = shopId then 1 else 0) ∧
      Positive shopId userId (recordLua shop orderId day u s).2 ∧
      (recordLua shop orderId day u s).2.recorded = insert (shop, orderId) s.recorded := by
  unfold recordLua
  by_cases hrec : (shop, orderId) ∈ s.recorded
  · rw [if_pos hrec, if_neg fun hnot => hnot.1 hrec, add_zero, Finset.insert_eq_of_mem hrec]
    exact ⟨h, hpos, rfl⟩
  rw [if_neg hrec]
  refine ⟨?_, hpos.setDaily fun hshop x hx => ?_, rfl⟩
  · have hset := setDaily_sum h shop day ((s.daily shop day).zincrby 1 u.toText)
    rw [scoreOf_zincrby] at hset
    convert hset using 1
    by_cases hshop : shop = shopId
    · subst hshop
      rw [if_pos rfl]
      by_cases hu : u = userId
      · rw [if_pos ⟨hrec, hu, rfl⟩, if_pos hu]
        omega
      · rw [if_neg fun h => hu h.2.1, if_neg hu]
        omega
    · rw [if_neg fun h => hshop h.2.2, if_neg hshop, add_zero]
  · subst hshop
    rw [ZSet.score_zincrby] at hx
    split at hx
    · rename_i heq
      cases hscore : (s.daily shop day).score u.toText with
      | none =>
        rw [hscore] at hx
        cases hx
        decide
      | some y =>
        have hy := hpos day y (heq ▸ hscore)
        rw [hscore] at hx
        cases hx
        exact Int.add_pos hy Int.one_pos
    · exact hpos day x hx

/-- What a rollback does to them. -/
theorem rollbackLua_sum {s : TopBuyers} {n : ℤ} (h : InFlight (scoreOf userId) (s.daily shopId) n)
    (hpos : Positive shopId userId s) (shop : ShopId) (day : Day) (u : UserId) :
    InFlight (scoreOf userId) ((rollbackLua shop day u s).2.daily shopId)
        (n - if u = userId ∧ shop = shopId ∧
            ((s.daily shopId day).score userId.toText).isSome then 1 else 0) ∧
      Positive shopId userId (rollbackLua shop day u s).2 ∧
      (rollbackLua shop day u s).2.recorded = s.recorded := by
  unfold rollbackLua
  cases hscore : (s.daily shop day).score u.toText with
  | none =>
    rw [if_neg, sub_zero]
    · exact ⟨h, hpos, rfl⟩
    · rintro ⟨rfl, rfl, hsome⟩
      rw [hscore] at hsome
      cases hsome
  | some x =>
    -- both branches leave one less than `x`, which is positive if it is the user's
    have hafter : ∀ z : ZSet Text,
        (∀ u', z.score u'.toText =
          if u' = u then (if x - 1 ≤ 0 then none else some (x - 1))
          else (s.daily shop day).score u'.toText) →
        InFlight (scoreOf userId) ((s.setDaily shop day z).daily shopId)
            (n - if u = userId ∧ shop = shopId ∧
              ((s.daily shopId day).score userId.toText).isSome then 1 else 0) ∧
          Positive shopId userId (s.setDaily shop day z) ∧
          (s.setDaily shop day z).recorded = s.recorded := by
      intro z hz
      refine ⟨?_, hpos.setDaily fun hshop y hy => ?_, rfl⟩
      · convert setDaily_sum h shop day z using 1
        by_cases hshop : shop = shopId
        · subst hshop
          rw [if_pos rfl, scoreOf, scoreOf, hz]
          by_cases hu : u = userId
          · subst hu
            have hx := hpos day x hscore
            rw [if_pos ⟨rfl, rfl, by rw [hscore]; rfl⟩, if_pos rfl, hscore]
            split
            · rw [Option.getD_some, Option.getD_none]
              omega
            · rw [Option.getD_some, Option.getD_some]
              omega
          · rw [if_neg fun h => hu h.1, if_neg (Ne.symm hu)]
            omega
        · rw [if_neg fun h => hshop h.2.1, if_neg hshop, sub_zero]
      · subst hshop
        rw [hz] at hy
        split at hy
        · split at hy
          · cases hy
          · cases hy
            omega
        · exact hpos day y hy
    dsimp only
    split
    · rename_i hle
      refine hafter _ fun u' => ?_
      rw [ZSet.score_zrem, ZSet.score_zincrby, if_pos hle]
      by_cases hu : u' = u
      · simp [hu]
      · have hne : u'.toText ≠ u.toText := fun heq => hu (Long.toText_injective heq)
        simp [hu, hne]
    · rename_i hle
      refine hafter _ fun u' => ?_
      rw [ZSet.score_zincrby, if_neg hle, hscore]
      by_cases hu : u' = u
      · simp [hu, sub_eq_add_neg]
      · have hne : u'.toText ≠ u.toText := fun heq => hu (Long.toText_injective heq)
        simp [hu, hne]

theorem recordSuccessfulOrder_eq (shops : VoucherShops) (now : Time) (order : OrderDraft)
    (s : TopBuyers) :
    recordSuccessfulOrder true shops now order.marketing s =
      match resolveShopId shops order.voucherId with
      | none => s
      | some shop => (recordLua shop order.id (toLocalDate now) order.userId s).2 :=
  rfl

theorem rollbackCancelledOrder_eq (shops : VoucherShops) (now : Time) (order : VoucherOrder)
    (s : TopBuyers) :
    rollbackCancelledOrder true shops now order.marketing s =
      match resolveShopId shops order.voucherId with
      | none => s
      | some shop => (rollbackLua shop (toLocalDate order.createTime) order.userId s).2 :=
  rfl

/-- What recording an order of the consumer does. -/
theorem record_sum {s : TopBuyers} {n : ℤ} (h : InFlight (scoreOf userId) (s.daily shopId) n)
    (hpos : Positive shopId userId s) (shops : VoucherShops) (order : OrderDraft) (now : Time) :
    InFlight (scoreOf userId)
        ((recordSuccessfulOrder true shops now order.marketing s).daily shopId)
        (n + if (shopId, order.id) ∉ s.recorded ∧
            OfBuyer shops shopId userId order.userId order.voucherId then 1 else 0) ∧
      Positive shopId userId (recordSuccessfulOrder true shops now order.marketing s) ∧
      ∀ p, p ∈ (recordSuccessfulOrder true shops now order.marketing s).recorded ↔
        p ∈ s.recorded ∨ p.2 = order.id ∧ resolveShopId shops order.voucherId = some p.1 := by
  obtain ⟨shop, hshop⟩ : ∃ shop, resolveShopId shops order.voucherId = shop := ⟨_, rfl⟩
  have hcall := recordSuccessfulOrder_eq shops now order s
  rw [hshop] at hcall
  cases shop with
  | none =>
    rw [hcall, if_neg fun hno => by simpa [hshop] using hno.2.2, add_zero]
    exact ⟨h, hpos, fun p => by simp [hshop]⟩
  | some shop =>
    obtain ⟨hsum, hpos', hrec⟩ := recordLua_sum h hpos shop order.id (toLocalDate now) order.userId
    rw [hcall]
    refine ⟨?_, hpos', fun p => ?_⟩
    · convert hsum using 3
      rw [OfBuyer, hshop, Option.some.injEq]
      constructor
      · rintro ⟨hnot, hu, rfl⟩
        exact ⟨hnot, hu, rfl⟩
      · rintro ⟨hnot, hu, rfl⟩
        exact ⟨hnot, hu, rfl⟩
    · dsimp only
      rw [hrec, hshop, Finset.mem_insert, Option.some.injEq, or_comm, Prod.ext_iff]
      exact or_congr_right ⟨fun hp => ⟨hp.2, hp.1.symm⟩, fun hp => ⟨hp.2.symm, hp.1⟩⟩

/-- What rolling a cancelled order back does. -/
theorem rollback_sum {s : TopBuyers} {n : ℤ} (h : InFlight (scoreOf userId) (s.daily shopId) n)
    (hpos : Positive shopId userId s) (shops : VoucherShops) (order : VoucherOrder) (now : Time) :
    InFlight (scoreOf userId)
        ((rollbackCancelledOrder true shops now order.marketing s).daily shopId)
        (n - if OfBuyer shops shopId userId order.userId order.voucherId ∧
            ((s.daily shopId (toLocalDate order.createTime)).score userId.toText).isSome
          then 1 else 0) ∧
      Positive shopId userId (rollbackCancelledOrder true shops now order.marketing s) ∧
      (rollbackCancelledOrder true shops now order.marketing s).recorded = s.recorded := by
  obtain ⟨shop, hshop⟩ : ∃ shop, resolveShopId shops order.voucherId = shop := ⟨_, rfl⟩
  have hcall := rollbackCancelledOrder_eq shops now order s
  rw [hshop] at hcall
  cases shop with
  | none =>
    rw [hcall, if_neg fun hno => by simpa [hshop] using hno.1.2, sub_zero]
    exact ⟨h, hpos, rfl⟩
  | some shop =>
    obtain ⟨hsum, hpos', hrec⟩ := rollbackLua_sum h hpos shop
      (toLocalDate order.createTime) order.userId
    rw [hcall]
    refine ⟨?_, hpos', hrec⟩
    convert hsum using 3
    rw [OfBuyer, hshop, Option.some.injEq, and_assoc]

/-! ## Rows and calls -/

/-- The user's orders of the shop that are not recorded. -/
def unrecorded (shops : VoucherShops) (shopId : ShopId) (userId : UserId) (s : State) : ℕ :=
  s.db.orders.rows.countP fun r =>
    decide (OfBuyer shops shopId userId r.userId r.voucherId) &&
      decide ((shopId, r.id) ∉ s.store.recorded)

/-- The rollbacks to come of the user's orders of the shop. -/
def pendingRollbacks (shops : VoucherShops) (shopId : ShopId) (userId : UserId) (s : State) : ℕ :=
  s.rollbacks.countP fun r => decide (OfBuyer shops shopId userId r.userId r.voucherId)

/-- What holds of the rows, the calls and the keys. -/
structure Kept (shops : VoucherShops) (shopId : ShopId) (userId : UserId) (s : State) : Prop where
  recorded : ∀ p ∈ s.store.recorded, s.db.hasOrder p.2 = true
  drafts : ∀ o ∈ s.records, ∃ r ∈ s.db.orders.rows,
    r.id = o.id ∧ r.userId = o.userId ∧ r.voucherId = o.voucherId
  covered : ∀ r ∈ s.db.orders.rows, OfBuyer shops shopId userId r.userId r.voucherId →
    (shopId, r.id) ∈ s.store.recorded ∨ ∃ o ∈ s.records, o.id = r.id
  positive : Positive shopId userId s.store

/-- `missed` rollbacks of the user's orders of the shop found no score. -/
structure Tracked (shops : VoucherShops) (shopId : ShopId) (userId : UserId) (missed : ℕ)
    (s : State) : Prop extends Kept shops shopId userId s where
  sum : InFlight (scoreOf userId) (s.store.daily shopId)
    (liveOrdersOf shops shopId userId s.db + pendingRollbacks shops shopId userId s -
      unrecorded shops shopId userId s + missed)

/-- Of the rows, the one with a given id. -/
theorem countP_id {db : Db} {r : VoucherOrder} (hr : r ∈ db.orders.rows)
    (p : VoucherOrder → Bool) :
    db.orders.rows.countP p =
      (db.orders.rows.countP fun x => p x && decide (x.id ≠ r.id)) + if p r then 1 else 0 := by
  have hone : db.orders.rows.filter (fun x => !decide (x.id ≠ r.id)) = [r] := by
    refine List.perm_singleton.mp ((List.perm_ext_iff_of_nodup
      (db.orders.nodup_key.of_map.filter _) (List.nodup_singleton r)).mpr fun x => ?_)
    rw [List.mem_filter, List.mem_singleton]
    constructor
    · rintro ⟨hx, hid⟩
      exact db.order_unique hx hr (by simpa using hid)
    · rintro rfl
      exact ⟨hr, by simp⟩
  rw [List.countP_eq_countP_filter_add _ p fun x => decide (x.id ≠ r.id), hone, List.countP_filter,
    List.countP_singleton]

/-! ## The steps -/

section Steps

variable {missed : ℕ} {s t : State}

/-- A batch adds live orders, none of them recorded. -/
theorem tracked_consume (h : Tracked shops shopId userId missed s) {tx : Transaction}
    {messages : List SeckillOrderMessage}
    (ht : step shops s (.consume tx messages) = some t) :
    Tracked shops shopId userId missed t := by
  simp only [step] at ht
  split at ht
  · cases ht
  rename_i orders db hcreate
  cases ht
  obtain ⟨new, hrows, hnew⟩ := createOrders_rows hcreate
  have hold : ∀ r ∈ s.db.orders.rows, r ∈ db.orders.rows := fun r hr => by
    rw [hrows]
    exact List.mem_append_left new hr
  have hlive : liveOrdersOf shops shopId userId db = liveOrdersOf shops shopId userId s.db +
      new.countP fun r => decide (OfBuyer shops shopId userId r.userId r.voucherId) := by
    rw [liveOrdersOf, hrows, List.countP_append]
    refine congrArg (_ + ·) (List.countP_congr fun r hr => ?_)
    simp [VoucherOrder.live, (hnew r hr).1]
  have hunrec : unrecorded shops shopId userId { s with db := db, records := s.records ++ orders } =
      unrecorded shops shopId userId s +
        new.countP fun r => decide (OfBuyer shops shopId userId r.userId r.voucherId) := by
    rw [unrecorded]
    dsimp only
    rw [hrows, List.countP_append]
    refine congrArg (_ + ·) (List.countP_congr fun r hr => ?_)
    have hfresh : (shopId, r.id) ∉ s.store.recorded := fun hmem => by
      have hhas := h.recorded _ hmem
      rw [(hnew r hr).2.1] at hhas
      cases hhas
    simp [hfresh]
  refine ⟨⟨fun p hp => ?_, fun o ho => ?_, fun r hr hof => ?_, h.positive⟩, ?_⟩
  · obtain ⟨r, hr, hid⟩ := Db.hasOrder_iff.mp (h.recorded p hp)
    exact Db.hasOrder_iff.mpr ⟨r, hold r hr, hid⟩
  · rcases List.mem_append.mp ho with ho | ho
    · obtain ⟨r, hr, hmatch⟩ := h.drafts o ho
      exact ⟨r, hold r hr, hmatch⟩
    · exact createOrders_row hcreate ho
  · dsimp only at hr ⊢
    rw [hrows] at hr
    rcases List.mem_append.mp hr with hr | hr
    · rcases h.covered r hr hof with hrecorded | ⟨o, ho, hid⟩
      · exact Or.inl hrecorded
      · exact Or.inr ⟨o, List.mem_append_left orders ho, hid⟩
    · obtain ⟨-, -, o, ho, hid⟩ := hnew r hr
      exact Or.inr ⟨o, List.mem_append_right s.records ho, hid⟩
  · rw [hunrec]
    dsimp only
    rw [hlive]
    convert h.sum using 1
    have hpending : pendingRollbacks shops shopId userId
        { s with db := db, records := s.records ++ orders } =
          pendingRollbacks shops shopId userId s := rfl
    rw [hpending]
    omega

/-- A recorded order leaves those not recorded. -/
theorem tracked_record (h : Tracked shops shopId userId missed s) {order : OrderDraft} {now : Time}
    (ht : step shops s (.record order now) = some t) :
    Tracked shops shopId userId missed t := by
  simp only [step] at ht
  split at ht
  swap
  · cases ht
  rename_i hmem
  cases ht
  obtain ⟨hsum, hpos, hrec⟩ := record_sum h.sum h.positive shops order now
  obtain ⟨row, hrow, hid, hu, hv⟩ := h.drafts order hmem
  refine ⟨⟨fun p hp => ?_, fun o ho => ?_, fun r hr hof => ?_, hpos⟩, ?_⟩
  · rcases (hrec p).mp hp with hp | ⟨hp, -⟩
    · exact h.recorded p hp
    · exact Db.hasOrder_iff.mpr ⟨row, hrow, hid.trans hp.symm⟩
  · exact h.drafts o (List.mem_of_mem_erase ho)
  · by_cases hr' : r.id = order.id
    · have heq : r = row := s.db.order_unique hr hrow (hr'.trans hid.symm)
      subst heq
      exact Or.inl ((hrec _).mpr (Or.inr ⟨hid, hv ▸ hof.2⟩))
    · rcases h.covered r hr hof with hdone | ⟨o, ho, hoid⟩
      · exact Or.inl ((hrec _).mpr (Or.inl hdone))
      · refine Or.inr ⟨o, (List.mem_erase_of_ne fun heq => hr' ?_).mpr ho, hoid⟩
        rw [← hoid, heq]
  · -- of the rows only that of the order changes sides
    have hcount : unrecorded shops shopId userId s =
        unrecorded shops shopId userId { s with
          store := recordSuccessfulOrder true shops now order.marketing s.store
          records := s.records.erase order } +
        if (shopId, order.id) ∉ s.store.recorded ∧
          OfBuyer shops shopId userId order.userId order.voucherId then 1 else 0 := by
      rw [unrecorded, unrecorded, countP_id hrow, countP_id hrow fun r =>
        decide (OfBuyer shops shopId userId r.userId r.voucherId) && decide ((shopId, r.id) ∉
          (recordSuccessfulOrder true shops now order.marketing s.store).recorded)]
      have hothers : ∀ r : VoucherOrder, r.id ≠ row.id →
          ((shopId, r.id) ∈
              (recordSuccessfulOrder true shops now order.marketing s.store).recorded ↔
            (shopId, r.id) ∈ s.store.recorded) := by
        intro r hne
        rw [hrec]
        exact or_iff_left fun hp => hne (hp.1.trans hid.symm)
      have hown : OfBuyer shops shopId userId order.userId order.voucherId →
          (shopId, order.id) ∈
            (recordSuccessfulOrder true shops now order.marketing s.store).recorded :=
        fun hof => (hrec _).mpr (Or.inr ⟨rfl, hof.2⟩)
      rw [hid, hu, hv]
      have hrest : (s.db.orders.rows.countP fun r =>
            decide (OfBuyer shops shopId userId r.userId r.voucherId) &&
              decide ((shopId, r.id) ∉ s.store.recorded) && decide (r.id ≠ order.id)) =
          s.db.orders.rows.countP fun r =>
            decide (OfBuyer shops shopId userId r.userId r.voucherId) && decide ((shopId, r.id) ∉
              (recordSuccessfulOrder true shops now order.marketing s.store).recorded) &&
                decide (r.id ≠ order.id) := by
        refine List.countP_congr fun r _ => ?_
        by_cases hne : r.id = order.id
        · simp [hne]
        · simp [hothers r (hid ▸ hne), hne]
      rw [hrest, Nat.add_assoc]
      congr 1
      by_cases hof : OfBuyer shops shopId userId order.userId order.voucherId
      · simp [hof, hown hof]
      · simp [hof]
    convert hsum using 1
    have hpending : pendingRollbacks shops shopId userId { s with
          store := recordSuccessfulOrder true shops now order.marketing s.store
          records := s.records.erase order } = pendingRollbacks shops shopId userId s := rfl
    rw [hcount, hpending]
    push_cast
    omega

/-- The cancelled row is live before and not after. -/
theorem liveOrdersOf_cancel {db db' : Db} {r : VoucherOrder} (hr : r ∈ db.orders.rows)
    (hlive : r.live = true) (hcancellable : r.cancellable)
    (hrows : db'.orders.rows = db.orders.rows.map (cancelRow r.id r.userId)) :
    liveOrdersOf shops shopId userId db = liveOrdersOf shops shopId userId db' +
      if OfBuyer shops shopId userId r.userId r.voucherId then 1 else 0 := by
  rw [liveOrdersOf, liveOrdersOf, countP_id hr, hrows, List.countP_map]
  congr 1
  · refine List.countP_congr fun x hx => ?_
    obtain ⟨-, hu, hv⟩ := cancelRow_ids r.id r.userId x
    simp only [Function.comp_apply, hu, hv]
    by_cases hid : x.id = r.id
    · obtain rfl := db.order_unique hx hr hid
      have hdead : (cancelRow x.id x.userId x).live = false := by
        rw [cancelRow, if_pos ⟨rfl, rfl, hcancellable⟩]
        rfl
      simp [hdead]
    · have hsame : cancelRow r.id r.userId x = x := if_neg fun h => hid h.1
      simp [hsame, hid]
  · simp [hlive]

/-- A cancellation changes no id, user or voucher. -/
theorem unrecorded_cancel {db' : Db} {orderId : OrderId} {u : UserId}
    (rollbacks : List VoucherOrder)
    (hrows : db'.orders.rows = s.db.orders.rows.map (cancelRow orderId u)) :
    unrecorded shops shopId userId { s with db := db', rollbacks := rollbacks } =
      unrecorded shops shopId userId s := by
  rw [unrecorded, unrecorded]
  dsimp only
  rw [hrows, List.countP_map]
  refine List.countP_congr fun x _ => ?_
  obtain ⟨hid, hu, hv⟩ := cancelRow_ids orderId u x
  simp only [Function.comp_apply, hid, hu, hv]

/-- A cancellation takes a live order and owes a rollback. -/
theorem tracked_cancel (h : Tracked shops shopId userId missed s) {pick : NewestFirst}
    {u : UserId} {v : VoucherId} (ht : step shops s (.cancel pick u v) = some t) :
    Tracked shops shopId userId missed t := by
  simp only [step] at ht
  obtain ⟨order, horder, ht⟩ := Option.bind_eq_some_iff.mp ht
  obtain ⟨db, hdb, rfl⟩ := Option.map_eq_some_iff.mp ht
  obtain ⟨horder, -, -, hlive⟩ := mem_liveOrders.mp (pick.mem horder)
  obtain ⟨⟨r, hr, hid, -, hcancellable⟩, hrows, -⟩ := cancelInTransaction_some hdb
  obtain rfl := s.db.order_unique hr horder hid
  have hmap : ∀ x ∈ s.db.orders.rows, ∃ y ∈ db.orders.rows,
      y.id = x.id ∧ y.userId = x.userId ∧ y.voucherId = x.voucherId := by
    intro x hx
    rw [hrows]
    exact ⟨_, List.mem_map_of_mem hx, cancelRow_ids _ _ x⟩
  have hpending : pendingRollbacks shops shopId userId
      { s with db := db, rollbacks := s.rollbacks ++ [{ r with status := .cancelled }] } =
        pendingRollbacks shops shopId userId s +
          if OfBuyer shops shopId userId r.userId r.voucherId then 1 else 0 := by
    rw [pendingRollbacks, pendingRollbacks, List.countP_append, List.countP_singleton]
    simp
  refine ⟨⟨fun p hp => ?_, fun o ho => ?_, fun x hx hof => ?_, h.positive⟩, ?_⟩
  · obtain ⟨x, hx, hxid⟩ := Db.hasOrder_iff.mp (h.recorded p hp)
    obtain ⟨y, hy, hyid, -⟩ := hmap x hx
    exact Db.hasOrder_iff.mpr ⟨y, hy, hyid.trans hxid⟩
  · obtain ⟨x, hx, hxid, hxu, hxv⟩ := h.drafts o ho
    obtain ⟨y, hy, hyid, hyu, hyv⟩ := hmap x hx
    exact ⟨y, hy, hyid.trans hxid, hyu.trans hxu, hyv.trans hxv⟩
  · dsimp only at hx ⊢
    rw [hrows] at hx
    obtain ⟨y, hy, rfl⟩ := List.mem_map.mp hx
    obtain ⟨hyid, hyu, hyv⟩ := cancelRow_ids r.id r.userId y
    rw [hyu, hyv] at hof
    rw [hyid]
    exact h.covered y hy hof
  · rw [unrecorded_cancel _ hrows, hpending]
    dsimp only
    convert h.sum using 1
    rw [liveOrdersOf_cancel hr (decide_eq_true hlive) hcancellable hrows]
    push_cast
    omega

/-- A rollback is no longer owed; it takes a score or misses. -/
theorem tracked_rollback (h : Tracked shops shopId userId missed s) {order : VoucherOrder}
    {now : Time} (ht : step shops s (.rollback order now) = some t) :
    ∃ missed', Tracked shops shopId userId missed' t ∧
      (missed' = 0 ↔ missed = 0 ∧ Found shops shopId userId s (.rollback order now)) := by
  simp only [step] at ht
  split at ht
  swap
  · cases ht
  rename_i hmem
  cases ht
  obtain ⟨hsum, hpos, hrec⟩ := rollback_sum h.sum h.positive shops order now
  have hpending : pendingRollbacks shops shopId userId s =
      pendingRollbacks shops shopId userId { s with
          store := rollbackCancelledOrder true shops now order.marketing s.store
          rollbacks := s.rollbacks.erase order } +
        if OfBuyer shops shopId userId order.userId order.voucherId then 1 else 0 := by
    rw [pendingRollbacks, (List.perm_cons_erase hmem).countP_eq, List.countP_cons]
    simp [pendingRollbacks]
  have hunrec : unrecorded shops shopId userId { s with
          store := rollbackCancelledOrder true shops now order.marketing s.store
          rollbacks := s.rollbacks.erase order } = unrecorded shops shopId userId s := by
    rw [unrecorded, unrecorded]
    dsimp only
    rw [hrec]
  have hkept : Kept shops shopId userId { s with
      store := rollbackCancelledOrder true shops now order.marketing s.store
      rollbacks := s.rollbacks.erase order } := by
    refine ⟨fun p hp => h.recorded p ?_, h.drafts, fun r hr hof => ?_, hpos⟩
    · dsimp only at hp
      rwa [hrec] at hp
    · dsimp only
      rw [hrec]
      exact h.covered r hr hof
  by_cases hfound : Found shops shopId userId s (.rollback order now)
  · refine ⟨missed, ⟨hkept, ?_⟩, (and_iff_left hfound).symm⟩
    have hiff : (OfBuyer shops shopId userId order.userId order.voucherId ∧
        ((s.store.daily shopId (toLocalDate order.createTime)).score userId.toText).isSome) ↔
          OfBuyer shops shopId userId order.userId order.voucherId :=
      ⟨And.left, fun hof => ⟨hof, hfound hof⟩⟩
    convert hsum using 1
    rw [if_congr hiff rfl rfl, hunrec, hpending]
    push_cast
    omega
  · refine ⟨missed + 1, ⟨hkept, ?_⟩, ⟨fun h => absurd h (Nat.succ_ne_zero _), fun h =>
      absurd h.2 hfound⟩⟩
    obtain ⟨hof, hnone⟩ := Classical.not_imp.mp hfound
    convert hsum using 1
    rw [if_neg fun h => hnone h.2, hunrec, hpending, if_pos hof]
    push_cast
    omega

theorem tracked_step (h : Tracked shops shopId userId missed s) {a : Action}
    (ht : step shops s a = some t) :
    ∃ missed', Tracked shops shopId userId missed' t ∧
      (missed' = 0 ↔ missed = 0 ∧ Found shops shopId userId s a) := by
  cases a with
  | consume tx messages => exact ⟨missed, tracked_consume h ht, by simp [Found]⟩
  | record order now => exact ⟨missed, tracked_record h ht, by simp [Found]⟩
  | cancel pick u v => exact ⟨missed, tracked_cancel h ht, by simp [Found]⟩
  | rollback order now => exact tracked_rollback h ht

end Steps

/-! ## Runs -/

theorem tracked_init {db : Db} (hdb : db.orders.rows = []) :
    Tracked shops shopId userId 0 (State.init db) := by
  refine ⟨⟨fun p hp => ?_, fun o ho => ?_, fun r hr _ => ?_, fun day x hx => ?_⟩, ?_⟩
  · exact absurd hp (Finset.notMem_empty p)
  · cases ho
  · dsimp only [State.init] at hr
    rw [hdb] at hr
    cases hr
  · cases hx
  · have hnone : InFlight (scoreOf userId) ((State.init db).store.daily shopId) 0 :=
      InFlight.of_forall fun _ => rfl
    simpa [liveOrdersOf, pendingRollbacks, unrecorded, State.init, hdb] using hnone

/-- **The scores count live orders.** In every run that ends with no call pending, the user's scores
of all days sum to the number of his orders of the shop that are not cancelled, if and only if every
rollback of such an order found a score of his on the order's day. -/
theorem score_counts_iff (shops : VoucherShops) (shopId : ShopId) (userId : UserId) {db : Db}
    {as : List Action} {t : State} (hdb : db.orders.rows = [])
    (hr : run (step shops) (State.init db) as = some t) (hquiet : t.Quiet) :
    ∑ᶠ day, scoreOf userId (t.store.daily shopId day) =
        liveOrdersOf shops shopId userId t.db ↔
      Along (step shops) (Found shops shopId userId) (State.init db) as := by
  obtain ⟨missed, htracked, hiff⟩ : ∃ missed, Tracked shops shopId userId missed t ∧
      (missed = 0 ↔ 0 = 0 ∧
        Along (step shops) (Found shops shopId userId) (State.init db) as) :=
    run_tracked (M := Tracked shops shopId userId) (P := Found shops shopId userId)
      (fun _ _ _ _ _ h ht => tracked_step h ht) (along_true _ as) (tracked_init hdb) hr
  have hsum := htracked.sum.finsum_eq
  have hpending : pendingRollbacks shops shopId userId t = 0 := by
    rw [pendingRollbacks, hquiet.2]
    rfl
  have hrecorded : unrecorded shops shopId userId t = 0 := by
    rw [unrecorded, List.countP_eq_zero]
    intro r hr hboth
    obtain ⟨hof, hnot⟩ := Bool.and_eq_true_iff.mp hboth
    rcases htracked.covered r hr (of_decide_eq_true hof) with hdone | ⟨o, ho, -⟩
    · exact of_decide_eq_true hnot hdone
    · rw [hquiet.1] at ho
      cases ho
  rw [hpending, hrecorded] at hsum
  refine (Iff.trans ?_ hiff).trans (and_iff_right rfl)
  rw [hsum]
  omega

/-- Vouchers 7 and 8 are of shop 3; there is no cached metadata. -/
def oneShop : VoucherShops := ⟨fun _ => none, fun _ => some (some 3)⟩

/-- Orders 1 and 2 are bought and recorded on one day, and order 1 is cancelled. -/
def sameDay : List Action :=
  [.consume ⟨NewestFirst.first, fun _ => 0, 0⟩ delivered,
    .record ⟨1, 7, 5, false⟩ 1, .record ⟨2, 8, 5, true⟩ 1,
    .cancel NewestFirst.first 5 7, .rollback ⟨1, 5, 7, .cancelled, 0⟩ 90000]

theorem score_counts_iff_sameDay :
    ∃ t, run (step oneShop) (State.init waiting) sameDay = some t ∧
      ∑ᶠ day, scoreOf 5 (t.store.daily 3 day) = liveOrdersOf oneShop 3 5 t.db := by
  obtain ⟨t, hr, hquiet⟩ :
      ∃ t, run (step oneShop) (State.init waiting) sameDay = some t ∧ t.Quiet := ⟨_, rfl, rfl, rfl⟩
  exact ⟨t, hr, (score_counts_iff oneShop 3 5 rfl hr hquiet).mpr (by decide +kernel)⟩

/-- Order 1 of the first day's last second, recorded after midnight and cancelled then. -/
def overMidnight : List Action :=
  [.consume ⟨NewestFirst.first, fun _ => 86399, 86399⟩ (delivered.take 1),
    .record ⟨1, 7, 5, false⟩ 86400, .cancel NewestFirst.first 5 7,
    .rollback ⟨1, 5, 7, .cancelled, 86399⟩ 86401]

/-- **Recorded the day after**: the rollback looks at the day of the order, and the score of the
next day stays. -/
theorem late_record_leaves_score :
    ∃ t, run (step oneShop) (State.init waiting) overMidnight = some t ∧ t.Quiet ∧
      liveOrdersOf oneShop 3 5 t.db = 0 ∧ ∑ᶠ day, scoreOf 5 (t.store.daily 3 day) = 1 := by
  obtain ⟨t, hr, hquiet, hlive, hdaily⟩ :
      ∃ t, run (step oneShop) (State.init waiting) overMidnight = some t ∧ t.Quiet ∧
        liveOrdersOf oneShop 3 5 t.db = 0 ∧ t.store.daily 3 = Function.update
          (fun _ => ZSet.empty) 1 (ZSet.empty.zincrby 1 (Long.toText 5)) :=
    ⟨_, rfl, ⟨rfl, rfl⟩, rfl, rfl⟩
  refine ⟨t, hr, hquiet, hlive, ?_⟩
  rw [hdaily, finsum_eq_single _ (1 : Day) fun day hday => ?_]
  · rw [Function.update_self]
    rfl
  · rw [Function.update_of_ne hday]
    rfl

end Hmdp.TopBuyer
