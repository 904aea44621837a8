import Hmdp.Lib.Reservation
import Hmdp.Pipeline.Conservation

/-!
# One live purchase per user

What a user has of a voucher: the live order rows and the outstanding reservations. Their order
ids are the user's claims, and in a coherent state these are the accepted orders of the user whose
row has not been cancelled (`mem_claims`). So persisting an order, once or many times, changes no
claim; `seckill.lua` adds one for a user who is not in the purchased set, and a cancellation drops
the one there is, together with the mark. A cancelled row never changes again, so a message
delivered later cannot revive it.

* **`one_live_purchase`**.
-/

namespace Hmdp.Pipeline

open Hmdp.Lib Hmdp.Model

variable {rejects : Reservation → Bool} {s t : State} {u : UserId} {v : VoucherId}

/-! ## Claims -/

/-- The outstanding reservations of a user. -/
def outstandingOf (u : UserId) (v : VoucherId) (s : State) : Finset Reservation :=
  (outstanding v s).filter fun r => r.userId = u

/-- The live orders and the outstanding reservations, counted. -/
def purchases (u : UserId) (v : VoucherId) (s : State) : ℕ :=
  (liveOrders s.db.orders.rows u v).length + (outstandingOf u v s).card

/-- Their order ids. -/
def claims (u : UserId) (v : VoucherId) (s : State) : Finset OrderId :=
  ((liveOrders s.db.orders.rows u v).map VoucherOrder.id).toFinset ∪
    (outstandingOf u v s).image Reservation.orderId

/-- No two of them share an order id. -/
theorem card_claims (h : Coherent rejects s) : (claims u v s).card = purchases u v s := by
  have hnodup : ((liveOrders s.db.orders.rows u v).map VoucherOrder.id).Nodup :=
    (List.filter_sublist.map _).nodup s.db.orders.nodup_key
  have hinj : Set.InjOn Reservation.orderId (outstandingOf u v s : Set Reservation) := by
    intro r hr r' hr' hid
    have hr := (h.mem_outstanding.mp (Finset.mem_filter.mp hr).1).1
    have hr' := (h.mem_outstanding.mp (Finset.mem_filter.mp hr').1).1
    exact h.unique hr hr' hid
  rw [claims, Finset.card_union_of_disjoint, List.toFinset_card_of_nodup hnodup, List.length_map,
    Finset.card_image_of_injOn hinj, purchases]
  rw [Finset.disjoint_left]
  intro o ho ho'
  obtain ⟨row, hrow, rfl⟩ := List.mem_map.mp (List.mem_toFinset.mp ho)
  obtain ⟨r, hr, hid⟩ := Finset.mem_image.mp ho'
  have hn := (h.mem_outstanding.mp (Finset.mem_filter.mp hr).1).2.2
  exact Db.not_hasOrder_iff.mp hn row (mem_liveOrders.mp hrow).1 hid.symm

/-- **The claims of a user are the accepted orders that are not cancelled.** -/
theorem mem_claims (h : Coherent rejects s) {o : OrderId} : o ∈ claims u v s ↔
    (∃ r ∈ s.granted, r.orderId = o ∧ r.userId = u ∧ r.voucherId = v) ∧
      ∀ row ∈ s.db.orders.rows, row.id = o → row.status ≠ .cancelled := by
  simp only [claims, Finset.mem_union, List.mem_toFinset, List.mem_map, Finset.mem_image,
    outstandingOf, Finset.mem_filter, h.mem_outstanding]
  constructor
  · rintro (⟨row, hrow, rfl⟩ | ⟨r, ⟨⟨hr, hv, hn⟩, hu⟩, rfl⟩)
    · obtain ⟨hrow, hu, hv, hlive⟩ := mem_liveOrders.mp hrow
      obtain ⟨r, hr, hid, hru, hrv⟩ := h.orders row hrow
      refine ⟨⟨r, h.granted_of_inOutbox hr, hid, hru.trans hu, hrv.trans hv⟩, ?_⟩
      intro row' hrow' hid'
      rwa [s.db.order_unique hrow' hrow hid']
    · exact ⟨⟨r, hr, rfl, hu, hv⟩, fun row hrow hid =>
        absurd hid (Db.not_hasOrder_iff.mp hn row hrow)⟩
  · rintro ⟨⟨r, hr, rfl, hu, hv⟩, hlive⟩
    by_cases hn : s.db.hasOrder r.orderId = true
    · obtain ⟨row, hrow, hid⟩ := Db.hasOrder_iff.mp hn
      obtain ⟨r', hr', hid', hu', hv'⟩ := h.orders row hrow
      have heq : r' = r := h.unique (h.granted_of_inOutbox hr') hr (hid'.trans hid)
      subst heq
      exact Or.inl ⟨row, mem_liveOrders.mpr ⟨hrow, hu'.symm.trans hu, hv'.symm.trans hv,
        hlive row hrow hid⟩, hid⟩
    · exact Or.inr ⟨r, ⟨⟨hr, hv, by simpa using hn⟩, hu⟩, rfl⟩

/-! ## The effect of a step on the claims -/

/-- The claims depend on the accepted orders and the order rows. -/
theorem claims_congr (hs : Coherent rejects s) (ht : Coherent rejects t)
    (granted : t.granted = s.granted) (orders : t.db.orders = s.db.orders) :
    claims u v t = claims u v s := by
  ext o
  rw [mem_claims ht, mem_claims hs, granted, orders]

theorem claims_reserve {c : SeckillCall} (hs : Coherent rejects s) (ht : Coherent rejects t)
    (fresh : c.orderId ∉ s.issued) (db : t.db = s.db)
    (granted : t.granted = c.reservation :: s.granted) :
    claims u v t =
      if c.userId = u ∧ c.voucherId = v then insert c.orderId (claims u v s) else claims u v s := by
  have hnew : ∀ row ∈ s.db.orders.rows, row.id ≠ c.orderId := by
    intro row hrow he
    exact fresh (hs.hasOrder_issued (Db.hasOrder_iff.mpr ⟨row, hrow, he⟩))
  ext o
  rw [mem_claims ht, granted, db]
  split
  · rename_i huv
    rw [Finset.mem_insert, mem_claims hs]
    constructor
    · rintro ⟨⟨r, hr, hid, hu, hv⟩, hlive⟩
      rcases List.mem_cons.mp hr with rfl | hr
      · exact Or.inl hid.symm
      · exact Or.inr ⟨⟨r, hr, hid, hu, hv⟩, hlive⟩
    · rintro (rfl | ⟨⟨r, hr, hrest⟩, hlive⟩)
      · exact ⟨⟨c.reservation, List.mem_cons_self, rfl, huv.1, huv.2⟩, fun row hrow hid =>
          absurd hid (hnew row hrow)⟩
      · exact ⟨⟨r, List.mem_cons_of_mem _ hr, hrest⟩, hlive⟩
  · rename_i huv
    rw [mem_claims hs]
    refine and_congr_left fun _ => ⟨?_, ?_⟩
    · rintro ⟨r, hr, hid, hu, hv⟩
      rcases List.mem_cons.mp hr with rfl | hr
      · exact absurd ⟨hu, hv⟩ huv
      · exact ⟨r, hr, hid, hu, hv⟩
    · rintro ⟨r, hr, hrest⟩
      exact ⟨r, List.mem_cons_of_mem _ hr, hrest⟩

/-- A consumer transaction, redelivered messages included, changes no claim. -/
theorem claims_persist {tx : Transaction} {messages : List SeckillOrderMessage}
    {os : List OrderDraft} (hs : Coherent rejects s) (ht : Coherent rejects t)
    (created : createOrders tx messages s.db = .ok (os, t.db)) (granted : t.granted = s.granted) :
    claims u v t = claims u v s := by
  ext o
  rw [mem_claims ht, mem_claims hs, granted]
  refine and_congr_right fun _ => ⟨fun h row hrow => ?_, fun h row hrow => ?_⟩
  · exact h row ((createOrders_mem_rows created).mpr (Or.inl hrow))
  · rcases (createOrders_mem_rows created).mp hrow with hrow | ⟨d, -, rfl⟩
    · exact h row hrow
    · exact fun _ => by simp [OrderDraft.row]

theorem cancelRow_status {orderId : OrderId} {userId : UserId} {row : VoucherOrder}
    (h : (cancelRow orderId userId row).status ≠ .cancelled) :
    cancelRow orderId userId row = row := by
  unfold cancelRow at h ⊢
  split
  · rename_i hc
    rw [if_pos hc] at h
    exact absurd rfl h
  · rfl

theorem cancelRow_of_cancelled {orderId : OrderId} {userId : UserId} {row : VoucherOrder}
    (h : row.status = .cancelled) : cancelRow orderId userId row = row := by
  unfold cancelRow
  rw [if_neg fun hc => by simp [h] at hc]

/-- A cancellation drops the claim of the order it cancels, and no other. -/
theorem claims_cancel {order : VoucherOrder} (hs : Coherent rejects s) (ht : Coherent rejects t)
    (selected : SelectedOk s.db order) (cancel : cancelInTransaction order s.db = some t.db)
    (granted : t.granted = s.granted) :
    claims u v t = (claims u v s).erase order.id ∧
      order.id ∈ claims order.userId order.voucherId s := by
  obtain ⟨⟨row, hrow, hid, hu, hcan⟩, hrows, -⟩ := cancelInTransaction_some cancel
  obtain ⟨row', hrow', hid', hu', hv'⟩ := selected
  have heq : row' = row := s.db.order_unique hrow' hrow (hid'.trans hid.symm)
  subst heq
  constructor
  · ext o
    rw [Finset.mem_erase, mem_claims ht, mem_claims hs, granted, hrows]
    constructor
    · rintro ⟨hg, hlive⟩
      refine ⟨?_, hg, fun x hx hxo => ?_⟩
      · rintro rfl
        refine hlive _ (List.mem_map_of_mem hrow) ((cancelRow_ids _ _ row').1.trans hid) ?_
        rw [cancelRow, if_pos ⟨hid, hu, hcan⟩]
      · have hc := hlive _ (List.mem_map_of_mem hx) ((cancelRow_ids _ _ x).1.trans hxo)
        rwa [cancelRow_status hc] at hc
    · rintro ⟨hne, hg, hlive⟩
      refine ⟨hg, fun y hy hyo => ?_⟩
      obtain ⟨x, hx, rfl⟩ := List.mem_map.mp hy
      rw [(cancelRow_ids _ _ x).1] at hyo
      have hkeep : cancelRow order.id order.userId x = x := by
        rw [cancelRow, if_neg fun hc => hne (hyo.symm.trans hc.1)]
      rw [hkeep]
      exact hlive x hx hyo
  · obtain ⟨r, hr, hrid, hru, hrv⟩ := hs.orders row' hrow
    refine (mem_claims hs).mpr ⟨⟨r, hs.granted_of_inOutbox hr, hrid.trans hid, hru.trans hu,
      hrv.trans hv'⟩, fun x hx hxo => ?_⟩
    rw [s.db.order_unique hx hrow (hxo.trans hid.symm)]
    exact hcan.ne_cancelled

/-- An order is a claim of its own user and voucher only. -/
theorem not_mem_claims {o : OrderId} {u' : UserId} {v' : VoucherId} (hs : Coherent rejects s)
    (ho : o ∈ claims u' v' s) (hne : ¬(u' = u ∧ v' = v)) : o ∉ claims u v s := by
  intro hc
  obtain ⟨⟨r, hr, hid, hu, hv⟩, -⟩ := (mem_claims hs).mp ho
  obtain ⟨⟨r', hr', hid', hu', hv'⟩, -⟩ := (mem_claims hs).mp hc
  have heq := hs.unique hr hr' (hid.trans hid'.symm)
  subst heq
  exact hne ⟨hu.symm.trans hu', hv.symm.trans hv'⟩

/-! ## The purchase mark -/

/-- At most one claim, and a claimant is in the purchased set. -/
def OnePurchase (u : UserId) (v : VoucherId) (s : State) : Prop :=
  Exclusive (claims u v s) (u ∈ s.redis.purchased v)

theorem onePurchase_step {a : Action} (hs : Coherent rejects s) (h : OnePurchase u v s)
    (hstep : step rejects s a = some t) : OnePurchase u v t := by
  have ht := coherent_step hs hstep
  unfold OnePurchase at *
  cases step_effect hs hstep with
  | quiet stores granted =>
    rwa [claims_congr hs ht granted stores.orders, stores.purchased]
  | reserved c n _ _ fresh _ _ notPurchased _ redis db granted =>
    rw [claims_reserve hs ht fresh db granted, redis]
    split
    · rename_i huv
      obtain ⟨rfl, rfl⟩ := huv
      exact h.take notPurchased (by simp [Redis.reserve])
    · refine h.mono (Finset.Subset.refl _) fun hu => ?_
      by_cases hv : v = c.voucherId
      · subst hv
        simp [Redis.reserve, hu]
      · simpa [Redis.reserve, hv] using hu
  | persisted tx messages os _ _ created redis granted =>
    rwa [claims_persist hs ht created granted, redis]
  | cancelled _ order n _ _ selected cancel _ redis granted =>
    obtain ⟨hclaims, hmem⟩ := @claims_cancel rejects s t u v order hs ht selected cancel granted
    rw [hclaims, redis]
    by_cases huv : order.userId = u ∧ order.voucherId = v
    · obtain ⟨rfl, rfl⟩ := huv
      exact h.drop hmem
    · rw [Finset.erase_eq_of_notMem (not_mem_claims hs hmem huv)]
      refine h.mono (Finset.Subset.refl _) fun hu => ?_
      by_cases hv : v = order.voucherId
      · subst hv
        simp only [Function.update_self, Finset.mem_erase]
        exact ⟨fun he => huv ⟨he.symm, rfl⟩, hu⟩
      · simpa [hv] using hu

/-- **A cancelled row stays as it is.** -/
theorem cancelled_step {a : Action} {row : VoucherOrder} (hs : Coherent rejects s)
    (hstep : step rejects s a = some t) (hc : row.status = .cancelled)
    (hrow : row ∈ s.db.orders.rows) : row ∈ t.db.orders.rows := by
  cases step_effect hs hstep with
  | quiet stores _ => rwa [stores.orders]
  | reserved c n _ _ _ _ _ _ _ _ db _ => rwa [db]
  | persisted tx messages os _ _ created _ _ =>
    exact (createOrders_mem_rows created).mpr (Or.inl hrow)
  | cancelled _ order n _ _ _ cancel _ _ _ =>
    rw [(cancelInTransaction_some cancel).2.1]
    have := List.mem_map_of_mem (f := cancelRow order.id order.userId) hrow
    rwa [cancelRow_of_cancelled hc] at this

/-! ## Runs -/

theorem Start.claims (h : Start s) : claims u v s = ∅ := by
  rw [Finset.eq_empty_iff_forall_notMem]
  intro o ho
  obtain ⟨⟨r, hr, -⟩, -⟩ := (mem_claims (@Start.coherent (fun _ => false) s h)).mp ho
  rw [h.granted] at hr
  exact absurd hr (by simp)

/-- **One live purchase per user.** In every run from a start a user has at most one live order or
outstanding reservation of a voucher, and is in the purchased set with one; and a row that was
cancelled on the way is still cancelled. -/
theorem one_live_purchase (rejects : Reservation → Bool) {s t : State} {as : List Action}
    (hstart : Start s) (hrun : run (step rejects) s as = some t) :
    (∀ u v, purchases u v t ≤ 1 ∧ (purchases u v t = 1 → u ∈ t.redis.purchased v)) ∧
      ∀ bs cs w, as = bs ++ cs → run (step rejects) s bs = some w →
        ∀ row ∈ w.db.orders.rows, row.status = .cancelled →
          ∀ row' ∈ t.db.orders.rows, row'.id = row.id → row'.status = .cancelled := by
  have hs : Coherent rejects s := hstart.coherent
  have ht := coherent_run hs hrun
  constructor
  · intro u v
    have hempty : OnePurchase u v s := by
      unfold OnePurchase
      rw [hstart.claims]
      exact Exclusive.empty
    obtain ⟨hone, hmark⟩ := (run_invariant' (I := fun s => Coherent rejects s ∧ OnePurchase u v s)
      (fun _ _ _ h hstep => ⟨coherent_step h.1 hstep, onePurchase_step h.1 h.2 hstep⟩)
      ⟨hs, hempty⟩ hrun).2
    rw [card_claims ht] at hone
    refine ⟨hone, fun he => hmark (Finset.card_pos.mp ?_)⟩
    rw [card_claims ht]
    omega
  · rintro bs cs w rfl hbs row hrow hc row' hrow' hid
    obtain ⟨w', hw', hcs⟩ := run_append.mp hrun
    have heq : w' = w := Option.some.inj (hw'.symm.trans hbs)
    subst heq
    have hkept := (run_invariant' (I := fun s => Coherent rejects s ∧ row ∈ s.db.orders.rows)
      (fun _ _ _ h hstep => ⟨coherent_step h.1 hstep, cancelled_step h.1 hstep hc h.2⟩)
      ⟨coherent_run hs hbs, hrow⟩ hcs).2
    rw [t.db.order_unique hrow' hkept hid]
    exact hc

/-- User 5 buys, cancels and buys again, and the message of the first order is delivered once
more, with the consumer's transaction rolled back. -/
def boughtAgain : List Action :=
  soldAndCancelled ++ buy 2 5 :: relayOne ++
    [.send (rowOf 2 2 5) true, .createOrders atZero [(rowOf 2 2 5).toMessage true],
      .createOrders atZero [(rowOf 1 1 5).toMessage true]]

theorem one_live_purchase_bought_again :
    ∃ t, run (step fun _ => false) (onSale 1) boughtAgain = some t ∧
      (∀ u v, purchases u v t ≤ 1 ∧ (purchases u v t = 1 → u ∈ t.redis.purchased v)) ∧
        ∀ bs cs w, boughtAgain = bs ++ cs → run (step fun _ => false) (onSale 1) bs = some w →
          ∀ row ∈ w.db.orders.rows, row.status = .cancelled →
            ∀ row' ∈ t.db.orders.rows, row'.id = row.id → row'.status = .cancelled := by
  obtain ⟨t, ht⟩ := Option.isSome_iff_exists.mp
    (show (run (step fun _ => false) (onSale 1) boughtAgain).isSome = true by decide +kernel)
  exact ⟨t, ht, one_live_purchase (fun _ => false) (start_onSale 1) ht⟩

end Hmdp.Pipeline
