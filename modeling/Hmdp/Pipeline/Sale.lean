import Hmdp.Lib.Refinement
import Hmdp.Pipeline.Purchase

/-!
# The pipeline is an atomic sale

What a seckill is for, with nothing in between: a stock of units, and who has bought one. An
answer of `seckill.lua` and a committed cancellation are the two things a caller sees, and each is
one atomic event of the sale, allowed by what was sold at that moment: 0 takes a unit for a user
who has none, 1 says that there is none left, 2 that the user has one, 7 that only the token was
wrong, and the other codes are given before stock and buyers are looked at. Every call comes with
an order id of its own.

The relays, the outbox, the deliveries in any number and order, the recovery service and the
crashes between any two of their steps show nothing. So every run of the pipeline is a run of the
sale (`simulates_sale`), and at its end the four stores together say what the sale says.

* `Sale.sound_run`: no run of the sale sells more than there was, or twice to a user.
* **`pipeline_refines_sale`**.
* `Shown.settled`: once nothing is outstanding, MySQL alone says it.
-/

namespace Hmdp.Pipeline

open Hmdp.Lib Hmdp.Model

/-! ## The sale -/

/-- A unit somebody has. -/
structure Purchase where
  orderId : OrderId
  userId : UserId
  voucherId : VoucherId
  deriving DecidableEq

/-- What is left of each voucher, and who has bought. -/
structure Sale where
  stock : VoucherId → Option ℤ
  purchases : Finset Purchase
  /-- the order ids of the calls so far -/
  issued : Finset OrderId

/-- What a customer sees of the sale. -/
inductive SaleEvent where
  | answered (purchase : Purchase) (reply : ℤ)
  | refunded (purchase : Purchase)

namespace Sale

/-- The sale as it opens. -/
def opening (stock : VoucherId → Option ℤ) (issued : Finset OrderId) : Sale := ⟨stock, ∅, issued⟩

/-- The units left; a voucher that is not on sale has none. -/
def remaining (x : Sale) (v : VoucherId) : ℤ := (x.stock v).getD 0

/-- The purchases of a voucher. -/
def sold (x : Sale) (v : VoucherId) : Finset Purchase :=
  x.purchases.filter fun p => p.voucherId = v

/-- Who has a unit of the voucher. -/
def buyers (x : Sale) (v : VoucherId) : Finset UserId := (x.sold v).image Purchase.userId

/-- The sale can give the purchase: a unit is left, and the user has none. -/
def Available (x : Sale) (p : Purchase) : Prop :=
  0 < x.remaining p.voucherId ∧ p.userId ∉ x.buyers p.voucherId

instance (x : Sale) (p : Purchase) : Decidable (x.Available p) := by
  unfold Available
  infer_instance

/-- A purchase succeeds. -/
def sell (x : Sale) (p : Purchase) : Sale where
  stock := Function.update x.stock p.voucherId (some (x.remaining p.voucherId - 1))
  purchases := insert p x.purchases
  issued := insert p.orderId x.issued

/-- A call is answered with a refusal. -/
def refuse (x : Sale) (p : Purchase) : Sale := { x with issued := insert p.orderId x.issued }

/-- A purchase is taken back. -/
def refund (x : Sale) (p : Purchase) : Sale where
  stock := Function.update x.stock p.voucherId (some (x.remaining p.voucherId + 1))
  purchases := x.purchases.erase p
  issued := x.issued

/-- The answer is right for what has been sold so far. -/
def Allows (x : Sale) (p : Purchase) (reply : ℤ) : Prop :=
  p.orderId ∉ x.issued ∧
    ((reply = 0 ∧ x.Available p) ∨ (reply = 1 ∧ x.remaining p.voucherId ≤ 0) ∨
      (reply = 2 ∧ 0 < x.remaining p.voucherId ∧ p.userId ∈ x.buyers p.voucherId) ∨
      (reply = 7 ∧ x.Available p) ∨ reply ∈ ({3, 4, 5, 6, 8} : Finset ℤ))

instance (x : Sale) (p : Purchase) (reply : ℤ) : Decidable (x.Allows p reply) := by
  unfold Allows
  infer_instance

/-- One event; `none` where the sale does not allow it. -/
def step (x : Sale) : SaleEvent → Option Sale
  | .answered p reply =>
    if x.Allows p reply then some (if reply = 0 then x.sell p else x.refuse p) else none
  | .refunded p => if p ∈ x.purchases then some (x.refund p) else none

variable {x y : Sale} {p q : Purchase} {v : VoucherId} {u : UserId}

theorem mem_sold : p ∈ x.sold v ↔ p ∈ x.purchases ∧ p.voucherId = v := Finset.mem_filter

theorem mem_buyers :
    u ∈ x.buyers v ↔ ∃ p ∈ x.purchases, p.voucherId = v ∧ p.userId = u := by
  simp only [buyers, Finset.mem_image, mem_sold, and_assoc]

theorem stock_sell_of_ne (h : p.voucherId ≠ v) : (x.sell p).stock v = x.stock v :=
  Function.update_of_ne (Ne.symm h) _ _

theorem stock_refund_of_ne (h : p.voucherId ≠ v) : (x.refund p).stock v = x.stock v :=
  Function.update_of_ne (Ne.symm h) _ _

theorem sold_sell (x : Sale) (p : Purchase) (v : VoucherId) :
    (x.sell p).sold v = if p.voucherId = v then insert p (x.sold v) else x.sold v :=
  Finset.filter_insert _ _ _

theorem sold_refund (x : Sale) (p : Purchase) (v : VoucherId) :
    (x.refund p).sold v = (x.sold v).erase p := Finset.filter_erase _ _ _

/-! ## What every run of the sale keeps -/

/-- The units that were there at the opening are left or sold, none is missing, nobody has two of
them, and each has its own order id. -/
structure Sound (opening : VoucherId → Option ℤ) (x : Sale) : Prop where
  units : ∀ v n, opening v = some n → x.stock v = some (n - (x.sold v).card)
  enough : ∀ v n, opening v = some n → 0 ≤ n → ((x.sold v).card : ℤ) ≤ n
  unopened : ∀ v, opening v = none → x.stock v = none ∧ x.sold v = ∅
  one : ∀ p ∈ x.purchases, ∀ q ∈ x.purchases, p.voucherId = q.voucherId →
    p.userId = q.userId → p = q
  ids : ∀ p ∈ x.purchases, p.orderId ∈ x.issued
  distinct : ∀ p ∈ x.purchases, ∀ q ∈ x.purchases, p.orderId = q.orderId → p = q

theorem sound_opening (stock : VoucherId → Option ℤ) (issued : Finset OrderId) :
    Sound stock (opening stock issued) where
  units v n h := by simp [opening, sold, h]
  enough v n _ hn := by simpa [opening, sold] using hn
  unopened v h := ⟨h, rfl⟩
  one p hp := absurd hp (Finset.notMem_empty p)
  ids p hp := absurd hp (Finset.notMem_empty p)
  distinct p hp := absurd hp (Finset.notMem_empty p)

variable {stock : VoucherId → Option ℤ}

/-- A voucher with units left was on sale at the opening. -/
theorem Sound.opened (h : Sound stock x) (hp : 0 < x.remaining v) : ∃ n, stock v = some n := by
  by_contra hc
  have hnone := (h.unopened v (Option.eq_none_iff_forall_ne_some.mpr fun n hn => hc ⟨n, hn⟩)).1
  rw [remaining, hnone] at hp
  exact absurd hp (by simp)

theorem sound_sell (h : Sound stock x) (ha : x.Available p) (hfresh : p.orderId ∉ x.issued) :
    Sound stock (x.sell p) := by
  obtain ⟨hpos, hnone⟩ := ha
  have hnew : ∀ q ∈ x.purchases, p.voucherId = q.voucherId → p.userId ≠ q.userId :=
    fun q hq hv hu => hnone (mem_buyers.mpr ⟨q, hq, hv.symm, hu.symm⟩)
  have hcard : ∀ v, p.voucherId = v → ((x.sell p).sold v).card = (x.sold v).card + 1 := by
    rintro v rfl
    rw [sold_sell, if_pos rfl, Finset.card_insert_of_notMem]
    exact fun hin => hnew p (mem_sold.mp hin).1 rfl rfl
  constructor
  · intro v n hv
    have hs := h.units v n hv
    by_cases hpv : p.voucherId = v
    · rw [hcard v hpv]
      subst hpv
      simp only [sell, Function.update_self, remaining, hs, Option.getD_some]
      exact congrArg some (by omega)
    · rw [sold_sell, if_neg hpv, stock_sell_of_ne hpv, hs]
  · intro v n hv hn
    by_cases hpv : p.voucherId = v
    · rw [hcard v hpv]
      subst hpv
      rw [remaining, h.units _ n hv, Option.getD_some] at hpos
      push_cast
      omega
    · rw [sold_sell, if_neg hpv]
      exact h.enough v n hv hn
  · intro v hv
    have hpv : p.voucherId ≠ v := by
      rintro rfl
      obtain ⟨n, hn⟩ := h.opened hpos
      exact absurd (hv.symm.trans hn) (by simp)
    rw [sold_sell, if_neg hpv, stock_sell_of_ne hpv]
    exact h.unopened v hv
  · intro a ha b hb hv hu
    rcases Finset.mem_insert.mp ha with rfl | ha'
    · rcases Finset.mem_insert.mp hb with rfl | hb'
      · rfl
      · exact absurd hu (hnew b hb' hv)
    · rcases Finset.mem_insert.mp hb with rfl | hb'
      · exact absurd hu.symm (hnew a ha' hv.symm)
      · exact h.one a ha' b hb' hv hu
  · intro a ha
    rcases Finset.mem_insert.mp ha with rfl | ha
    · exact Finset.mem_insert_self _ _
    · exact Finset.mem_insert_of_mem (h.ids a ha)
  · intro a ha b hb hid
    rcases Finset.mem_insert.mp ha with rfl | ha'
    · rcases Finset.mem_insert.mp hb with rfl | hb'
      · rfl
      · exact absurd (hid ▸ h.ids b hb') hfresh
    · rcases Finset.mem_insert.mp hb with rfl | hb'
      · exact absurd (hid ▸ h.ids a ha') hfresh
      · exact h.distinct a ha' b hb' hid

theorem sound_refuse (h : Sound stock x) (p : Purchase) : Sound stock (x.refuse p) :=
  ⟨h.units, h.enough, h.unopened, h.one, fun q hq => Finset.mem_insert_of_mem (h.ids q hq),
    h.distinct⟩

theorem sound_refund (h : Sound stock x) (hp : p ∈ x.purchases) : Sound stock (x.refund p) := by
  have hin : p ∈ x.sold p.voucherId := mem_sold.mpr ⟨hp, rfl⟩
  have hother : ∀ v, p.voucherId ≠ v → (x.refund p).sold v = x.sold v := fun v hv => by
    rw [sold_refund, Finset.erase_eq_of_notMem fun hc => hv (mem_sold.mp hc).2]
  constructor
  · intro v n hv
    have hs := h.units v n hv
    by_cases hpv : p.voucherId = v
    · subst hpv
      have hpos := Finset.card_pos.mpr ⟨p, hin⟩
      rw [sold_refund, Finset.card_erase_of_mem hin]
      simp only [refund, Function.update_self, remaining, hs, Option.getD_some]
      exact congrArg some (by omega)
    · rw [hother v hpv, stock_refund_of_ne hpv, hs]
  · intro v n hv hn
    rw [sold_refund]
    exact (Int.ofNat_le.mpr (Finset.card_erase_le)).trans (h.enough v n hv hn)
  · intro v hv
    have hpv : p.voucherId ≠ v := by
      rintro rfl
      rw [(h.unopened _ hv).2] at hin
      exact absurd hin (Finset.notMem_empty p)
    rw [hother v hpv, stock_refund_of_ne hpv]
    exact h.unopened v hv
  · exact fun a ha b hb => h.one a (Finset.mem_of_mem_erase ha) b (Finset.mem_of_mem_erase hb)
  · exact fun a ha => h.ids a (Finset.mem_of_mem_erase ha)
  · exact fun a ha b hb =>
      h.distinct a (Finset.mem_of_mem_erase ha) b (Finset.mem_of_mem_erase hb)

theorem sound_step {e : SaleEvent} (h : Sound stock x) (hstep : x.step e = some y) :
    Sound stock y := by
  cases e with
  | answered p reply =>
    simp only [step] at hstep
    split at hstep
    · rename_i hallows
      cases hstep
      split
      · rename_i hzero
        obtain ⟨hfresh, ⟨-, ha⟩ | ⟨hr, -⟩ | ⟨hr, -⟩ | ⟨hr, -⟩ | hr⟩ := hallows
        · exact sound_sell h ha hfresh
        all_goals simp [hzero] at hr
      · exact sound_refuse h p
    · exact absurd hstep (by simp)
  | refunded p =>
    simp only [step] at hstep
    split at hstep
    · rename_i hp
      cases hstep
      exact sound_refund h hp
    · exact absurd hstep (by simp)

/-- **No run of the sale oversells.** -/
theorem sound_run {issued : Finset OrderId} {events : List SaleEvent}
    (hrun : run step (opening stock issued) events = some x) : Sound stock x :=
  run_invariant' (fun _ _ _ h hstep => sound_step h hstep) (sound_opening stock issued) hrun

end Sale

/-! ## What the pipeline shows -/

/-- The purchase a call asks for. -/
def purchaseOf (c : SeckillCall) : Purchase := ⟨c.orderId, c.userId, c.voucherId⟩

/-- The answer of the script, and the cancellation that commits. -/
def shows (s : State) : Action → Option SaleEvent
  | .seckill c => some (.answered (purchaseOf c) (seckillLua c s.redis).1)
  | .cancel i =>
    (s.cancels i).bind fun order => (cancelCommitted order s.redis s.db).map fun _ =>
      .refunded ⟨order.id, order.userId, order.voucherId⟩
  | _ => none

/-- The stores say what the sale says. -/
structure Shown (s : State) (x : Sale) : Prop where
  issued : s.issued = x.issued
  stock : s.redis.stock = x.stock
  buyers : ∀ v, s.redis.purchased v = x.buyers v
  purchases : ∀ p, p ∈ x.purchases ↔ p.orderId ∈ claims p.userId p.voucherId s
  mysql : ∀ v n, x.stock v = some n → s.db.stock v = some (n + (outstandingIds v s).card)

/-- The simulation. -/
structure Presents (rejects : Reservation → Bool) (s : State) (x : Sale) : Prop where
  coherent : Coherent rejects s
  one : ∀ u v, OnePurchase u v s
  balanced : ∀ v n, x.stock v = some n → Balanced v s
  issued : s.issued = x.issued
  stock : s.redis.stock = x.stock
  buyers : ∀ v, s.redis.purchased v = x.buyers v
  purchases : ∀ p, p ∈ x.purchases ↔ p.orderId ∈ claims p.userId p.voucherId s

variable {rejects : Reservation → Bool} {s t : State} {x : Sale}

theorem Presents.shown (h : Presents rejects s x) : Shown s x where
  issued := h.issued
  stock := h.stock
  buyers := h.buyers
  purchases := h.purchases
  mysql v n hv := by
    obtain ⟨r, S, hc⟩ := balanced_iff.mp (h.balanced v n hv)
    have hr : r = n := Option.some.inj (hc.redis.symm.trans ((congrFun h.stock v).trans hv))
    rw [hc.mysql, ← hr, hc.balance]

/-- **What a refusal of the script says.** -/
theorem seckillLua_refused {c : SeckillCall} {redis : Redis} (h : (seckillLua c redis).1 ≠ 0) :
    ((seckillLua c redis).1 = 1 ∧ (redis.stock c.voucherId).getD 0 ≤ 0) ∨
      ((seckillLua c redis).1 = 2 ∧ 0 < (redis.stock c.voucherId).getD 0 ∧
        c.userId ∈ redis.purchased c.voucherId) ∨
      ((seckillLua c redis).1 = 7 ∧ 0 < (redis.stock c.voucherId).getD 0 ∧
        c.userId ∉ redis.purchased c.voucherId) ∨
      (seckillLua c redis).1 ∈ ({3, 4, 5, 6, 8} : Finset ℤ) := by
  have hcode : ∀ code ∈ ({3, 4, 5, 6, 8} : Finset ℤ), code ∈ ({3, 4, 5, 6, 8} : Finset ℤ) :=
    fun _ hc => hc
  unfold seckillLua at h ⊢
  split
  · exact Or.inr (Or.inr (Or.inr (hcode 8 (by decide))))
  dsimp only at h ⊢
  split
  · split
    · exact Or.inr (Or.inr (Or.inr (hcode 4 (by decide))))
    split
    · exact Or.inr (Or.inr (Or.inr (hcode 5 (by decide))))
    split
    · exact Or.inr (Or.inr (Or.inr (hcode 6 (by decide))))
    split
    · rename_i hnone
      exact Or.inl ⟨rfl, by simp [hnone]⟩
    · rename_i n hn
      rw [hn, Option.getD_some]
      split
      · exact Or.inl ⟨rfl, by assumption⟩
      rename_i hpos
      split
      · exact Or.inr (Or.inl ⟨rfl, not_le.mp hpos, by assumption⟩)
      rename_i hfirst
      split
      · exact Or.inr (Or.inr (Or.inl ⟨rfl, not_le.mp hpos, hfirst⟩))
      · simp_all
  · exact Or.inr (Or.inr (Or.inr (hcode 3 (by decide))))

/-- Only a call takes an order id. -/
theorem step_issued {a : Action} (hstep : step rejects s a = some t) :
    (∃ c, a = .seckill c ∧ c.orderId ∉ s.issued ∧ t.issued = insert c.orderId s.issued) ∨
      (∀ c, a ≠ .seckill c) ∧ t.issued = s.issued := by
  cases a with
  | seckill c =>
    simp only [step] at hstep
    split at hstep
    · exact absurd hstep (by simp)
    · rename_i hfresh
      cases hstep
      exact Or.inl ⟨c, rfl, hfresh, rfl⟩
  | configure activity accessToken => cases hstep; exact Or.inr ⟨by simp, rfl⟩
  | crash i => cases hstep; exact Or.inr ⟨by simp, rfl⟩
  | claimRelayBatch ids owner leaseUntil now => cases hstep; exact Or.inr ⟨by simp, rfl⟩
  | markSentBatch ids owner nextCheckTime now => cases hstep; exact Or.inr ⟨by simp, rfl⟩
  | scheduleRetryBatch ids owner nextRetryTime lastError now =>
    cases hstep
    exact Or.inr ⟨by simp, rfl⟩
  | _ =>
    refine Or.inr ⟨by simp, ?_⟩
    simp only [step] at hstep
    repeat' split at hstep
    all_goals first
      | cases hstep; rfl
      | exact absurd hstep (by simp)

/-- **A quiet step** shows nothing, or an answer that refuses. -/
theorem presents_quiet {a : Action} (h : Presents rejects s x)
    (hstep : step rejects s a = some t) (stores : Quiet s.redis t.redis s.db t.db)
    (granted : t.granted = s.granted) :
    ∃ y, run Sale.step x (shows s a).toList = some y ∧ y.stock = x.stock ∧
      y.purchases = x.purchases ∧ t.issued = y.issued := by
  rcases step_issued hstep with ⟨c, rfl, hfresh, hissued⟩ | ⟨hcall, hissued⟩
  · have hcode : (seckillLua c s.redis).1 ≠ 0 := by
      intro hzero
      simp only [step, if_neg hfresh, hzero, if_true] at hstep
      cases hstep
      exact absurd granted (List.cons_ne_self _ _)
    have hallows : x.Allows (purchaseOf c) (seckillLua c s.redis).1 := by
      have hrefused := seckillLua_refused hcode
      rw [h.stock, h.buyers] at hrefused
      exact ⟨h.issued ▸ hfresh, Or.inr hrefused⟩
    refine ⟨x.refuse (purchaseOf c), ?_, rfl, rfl, ?_⟩
    · show run Sale.step x [.answered (purchaseOf c) (seckillLua c s.redis).1] = _
      rw [run_single, Sale.step, if_pos hallows, if_neg hcode]
    · rw [hissued, h.issued]
      rfl
  · refine ⟨x, ?_, rfl, rfl, hissued.trans h.issued⟩
    cases a with
    | seckill c => exact absurd rfl (hcall c)
    | cancel i =>
      simp only [step] at hstep
      split at hstep
      · exact absurd hstep (by simp)
      rename_i order hi
      split at hstep
      · rename_i hc
        simp [shows, hi, hc]
      · rename_i redis db hc
        cases hstep
        obtain ⟨-, n, hn, rfl⟩ := cancelCommitted_some hc
        have hkept := congrFun stores.stock order.voucherId
        simp only [Function.update_self, hn, Option.some.injEq] at hkept
        omega
    | _ => rfl

/-- What the invariants of the pipeline give after any step. -/
theorem Presents.next {a : Action} {y : Sale} (h : Presents rejects s x)
    (hstep : step rejects s a = some t)
    (onSale : ∀ v n, y.stock v = some n → ∃ m, x.stock v = some m) (issued : t.issued = y.issued)
    (stock : t.redis.stock = y.stock) (buyers : ∀ v, t.redis.purchased v = y.buyers v)
    (purchases : ∀ p, p ∈ y.purchases ↔ p.orderId ∈ claims p.userId p.voucherId t) :
    Presents rejects t y where
  coherent := coherent_step h.coherent hstep
  one u v := onePurchase_step h.coherent (h.one u v) hstep
  balanced v n hv := by
    obtain ⟨m, hm⟩ := onSale v n hv
    exact balanced_step h.coherent (h.balanced v m hm) hstep
  issued := issued
  stock := stock
  buyers := buyers
  purchases := purchases

/-- Stock and purchases of the sale stay as they are when stocks, buyers and claims do. -/
theorem Presents.kept {a : Action} {y : Sale} (h : Presents rejects s x)
    (hstep : step rejects s a = some t) (stock : t.redis.stock = s.redis.stock)
    (purchased : t.redis.purchased = s.redis.purchased)
    (hclaims : ∀ u v, claims u v t = claims u v s) (ystock : y.stock = x.stock)
    (ypurchases : y.purchases = x.purchases) (issued : t.issued = y.issued) :
    Presents rejects t y :=
  h.next hstep (fun v n hn => ⟨n, ystock ▸ hn⟩) issued
    (stock.trans (h.stock.trans ystock.symm))
    (fun v => by
      rw [purchased, h.buyers, Sale.buyers, Sale.buyers, Sale.sold, Sale.sold, ypurchases])
    fun p => by rw [hclaims, ypurchases, h.purchases]

/-- **An accepted order** takes a unit of the sale. -/
theorem presents_sold {c : SeckillCall} {n : ℤ} (h : Presents rejects s x)
    (hstep : step rejects s (.seckill c) = some t) (accepted : (seckillLua c s.redis).1 = 0)
    (fresh : c.orderId ∉ s.issued) (stock : s.redis.stock c.voucherId = some n)
    (positive : 0 < n) (notPurchased : c.userId ∉ s.redis.purchased c.voucherId)
    (redis : t.redis = s.redis.reserve c n) (db : t.db = s.db)
    (granted : t.granted = c.reservation :: s.granted) :
    ∃ y, run Sale.step x (shows s (.seckill c)).toList = some y ∧ Presents rejects t y := by
  have hn : x.remaining c.voucherId = n := by
    rw [Sale.remaining, ← h.stock, stock, Option.getD_some]
  have havailable : x.Available (purchaseOf c) := by
    refine ⟨?_, ?_⟩
    · show 0 < x.remaining c.voucherId
      rwa [hn]
    · show c.userId ∉ x.buyers c.voucherId
      rwa [← h.buyers]
  refine ⟨x.sell (purchaseOf c), ?_, h.next hstep ?_ ?_ ?_ ?_ ?_⟩
  · have hallows : x.Allows (purchaseOf c) (seckillLua c s.redis).1 :=
      ⟨h.issued ▸ fresh, Or.inl ⟨accepted, havailable⟩⟩
    show run Sale.step x [.answered (purchaseOf c) (seckillLua c s.redis).1] = _
    rw [run_single, Sale.step, if_pos hallows, if_pos accepted]
  · intro v m hm
    by_cases hv : c.voucherId = v
    · exact ⟨n, by rw [← hv, ← h.stock, stock]⟩
    · exact ⟨m, by rwa [Sale.stock_sell_of_ne (p := purchaseOf c) hv] at hm⟩
  · rcases step_issued hstep with ⟨c', hc, -, hissued⟩ | ⟨hcall, -⟩
    · cases hc
      rw [hissued, h.issued]
      rfl
    · exact absurd rfl (hcall c)
  · rw [redis, ← hn, Sale.sell, ← h.stock]
    rfl
  · intro v
    rw [redis, Sale.buyers, Sale.sold_sell]
    show Function.update s.redis.purchased c.voucherId
      (insert c.userId (s.redis.purchased c.voucherId)) v = _
    by_cases hv : c.voucherId = v
    · subst hv
      rw [Function.update_self, if_pos (show (purchaseOf c).voucherId = c.voucherId from rfl),
        Finset.image_insert, h.buyers]
      rfl
    · rw [Function.update_of_ne (Ne.symm hv), if_neg (show ¬(purchaseOf c).voucherId = v from hv),
        h.buyers]
      rfl
  · intro p
    rw [claims_reserve h.coherent (coherent_step h.coherent hstep) fresh db granted, Sale.sell,
      Finset.mem_insert, h.purchases]
    obtain ⟨o, u, v⟩ := p
    simp only [purchaseOf, Purchase.mk.injEq]
    split
    · rename_i huv
      obtain ⟨rfl, rfl⟩ := huv
      simp
    · rename_i huv
      exact or_iff_right fun he => huv ⟨he.2.1.symm, he.2.2.symm⟩

/-- **A committed cancellation** gives the unit back. -/
theorem presents_refunded {i : ℕ} {order : VoucherOrder} {n : ℤ} (h : Presents rejects s x)
    (hstep : step rejects s (.cancel i) = some t)
    (committed : s.cancels i = some order ∧
      cancelCommitted order s.redis s.db = some (t.redis, t.db))
    (selected : SelectedOk s.db order) (cancel : cancelInTransaction order s.db = some t.db)
    (stock : s.redis.stock order.voucherId = some n)
    (redis : t.redis = { s.redis with
      purchased := Function.update s.redis.purchased order.voucherId
        ((s.redis.purchased order.voucherId).erase order.userId)
      stock := Function.update s.redis.stock order.voucherId (some (n + 1)) })
    (granted : t.granted = s.granted) :
    ∃ y, run Sale.step x (shows s (.cancel i)).toList = some y ∧ Presents rejects t y := by
  have ht := coherent_step h.coherent hstep
  have hdrop := fun u v =>
    @claims_cancel rejects s t u v order h.coherent ht selected cancel granted
  have hmine := (hdrop order.userId order.voucherId).2
  have hn : x.remaining order.voucherId = n := by
    rw [Sale.remaining, ← h.stock, stock, Option.getD_some]
  have hin : (⟨order.id, order.userId, order.voucherId⟩ : Purchase) ∈ x.purchases :=
    (h.purchases _).mpr hmine
  -- nobody else has the order, and its user has nothing else
  have hid : ∀ q ∈ x.purchases, q.orderId = order.id →
      q = ⟨order.id, order.userId, order.voucherId⟩ := by
    rintro ⟨o, u, v⟩ hq rfl
    have hq := (h.purchases _).mp hq
    have huv : order.userId = u ∧ order.voucherId = v := by
      by_contra hne
      exact not_mem_claims h.coherent hmine hne hq
    obtain ⟨rfl, rfl⟩ := huv
    rfl
  have honly : ∀ q ∈ x.purchases, q.userId = order.userId → q.voucherId = order.voucherId →
      q.orderId = order.id := by
    rintro ⟨o, u, v⟩ hq rfl rfl
    exact Finset.card_le_one.mp (h.one _ _).one o ((h.purchases _).mp hq) order.id hmine
  refine ⟨x.refund ⟨order.id, order.userId, order.voucherId⟩, ?_, h.next hstep ?_ ?_ ?_ ?_ ?_⟩
  · rw [shows, committed.1, Option.bind_some, committed.2]
    exact run_single.mpr (if_pos hin)
  · intro v m hm
    by_cases hv : order.voucherId = v
    · exact ⟨n, by rw [← hv, ← h.stock, stock]⟩
    · exact ⟨m, by rwa [@Sale.stock_refund_of_ne x _ v hv] at hm⟩
  · rcases step_issued hstep with ⟨c, hc, -⟩ | ⟨-, hissued⟩
    · exact absurd hc (by simp)
    · exact hissued.trans h.issued
  · rw [redis, ← hn, Sale.refund, ← h.stock]
  · intro v
    ext u
    rw [redis, Sale.mem_buyers]
    by_cases huv : order.userId = u ∧ order.voucherId = v
    · obtain ⟨rfl, rfl⟩ := huv
      simp only [Function.update_self, Finset.mem_erase, ne_eq, not_true_eq_false, false_and,
        false_iff, not_exists, not_and]
      intro q hq hv hu
      obtain ⟨hne, hq⟩ := Finset.mem_erase.mp hq
      exact hne (hid q hq (honly q hq hu hv))
    · have hpurchased : u ∈ Function.update s.redis.purchased order.voucherId
          ((s.redis.purchased order.voucherId).erase order.userId) v ↔
            u ∈ s.redis.purchased v := by
        by_cases hv : v = order.voucherId
        · subst hv
          rw [Function.update_self, Finset.mem_erase]
          exact and_iff_right fun hu => huv ⟨hu.symm, rfl⟩
        · rw [Function.update_of_ne hv]
      rw [hpurchased, h.buyers, Sale.mem_buyers]
      refine exists_congr fun q => ?_
      rw [Sale.refund, Finset.mem_erase]
      constructor
      · rintro ⟨hq, hv, hu⟩
        refine ⟨⟨?_, hq⟩, hv, hu⟩
        rintro rfl
        exact huv ⟨hu, hv⟩
      · rintro ⟨⟨-, hq⟩, hv, hu⟩
        exact ⟨hq, hv, hu⟩
  · intro q
    rw [(hdrop q.userId q.voucherId).1, Sale.refund, Finset.mem_erase, Finset.mem_erase,
      h.purchases]
    refine and_congr_left fun hq => not_congr ⟨fun he => ?_, fun he => ?_⟩
    · rw [he]
    · exact hid q ((h.purchases q).mpr hq) he

/-- **Every step of the pipeline is at most one event of the sale.** -/
theorem simulates_sale (rejects : Reservation → Bool) :
    Simulates (step rejects) shows Sale.step (Presents rejects) := by
  intro s a t x h hstep
  have ht := coherent_step h.coherent hstep
  cases step_effect h.coherent hstep with
  | quiet stores granted =>
    obtain ⟨y, hy, hstock, hpurchases, hissued⟩ := presents_quiet h hstep stores granted
    exact ⟨y, hy, h.kept hstep stores.stock stores.purchased
      (fun u v => claims_congr h.coherent ht granted stores.orders) hstock hpurchases hissued⟩
  | reserved c n action accepted fresh stock positive notPurchased _ redis db granted =>
    subst action
    exact presents_sold h hstep accepted fresh stock positive notPurchased redis db granted
  | persisted tx messages os action _ created redis granted =>
    subst action
    have hissued : t.issued = s.issued := by
      rcases step_issued hstep with ⟨c, hc, -⟩ | ⟨-, hissued⟩
      · exact absurd hc (by simp)
      · exact hissued
    exact ⟨x, rfl, h.kept hstep (by rw [redis]) (by rw [redis])
      (fun u v => claims_persist h.coherent ht created granted) rfl rfl
      (hissued.trans h.issued)⟩
  | cancelled i order n action committed selected cancel stock redis granted =>
    subst action
    exact presents_refunded h hstep committed selected cancel stock redis granted

/-! ## Runs -/

theorem Start.presents (h : Start s) (hbuyers : ∀ v, s.redis.purchased v = ∅)
    (hstock : ∀ v n, s.redis.stock v = some n → s.db.stock v = some n ∧ 0 ≤ n) :
    Presents rejects s (Sale.opening s.redis.stock s.issued) where
  coherent := h.coherent
  one u v := by
    unfold OnePurchase
    rw [h.claims]
    exact Exclusive.empty
  balanced v n hv := by
    obtain ⟨hdb, hn⟩ := hstock v n hv
    exact balanced_iff.mpr ⟨n, n, hv, hdb, hn, hn, by simp [h.outstandingIds]⟩
  issued := rfl
  stock := rfl
  buyers := hbuyers
  purchases p := by simp [Sale.opening, h.claims]

/-- **The pipeline refines the sale.** From a start where nobody has bought and MySQL has the
stocks that Redis has, what the callers see in any run is a run of the sale; that run sold no unit
twice, no more than there were and nobody two; and at its end the stores together say exactly what
was sold to whom and what is left. -/
theorem pipeline_refines_sale (rejects : Reservation → Bool) {s t : State} {as : List Action}
    (hstart : Start s) (hbuyers : ∀ v, s.redis.purchased v = ∅)
    (hstock : ∀ v n, s.redis.stock v = some n → s.db.stock v = some n ∧ 0 ≤ n)
    (hrun : run (step rejects) s as = some t) :
    ∃ x, run Sale.step (Sale.opening s.redis.stock s.issued)
        (trace (step rejects) shows s as) = some x ∧
      x.Sound s.redis.stock ∧ Shown t x := by
  obtain ⟨x, hx, hpresents⟩ :=
    simulates_run (simulates_sale rejects) (hstart.presents hbuyers hstock) hrun
  exact ⟨x, hx, Sale.sound_run hx, hpresents.shown⟩

/-- **At rest** the stock of MySQL is that of the sale. -/
theorem Shown.settled {v : VoucherId} {n : ℤ} (h : Shown t x) (hv : x.stock v = some n)
    (hnone : outstanding v t = ∅) :
    t.db.stock v = some n ∧ ∀ p, p.voucherId = v →
      (p ∈ x.purchases ↔ ∃ row ∈ liveOrders t.db.orders.rows p.userId v, row.id = p.orderId) := by
  refine ⟨?_, ?_⟩
  · rw [h.mysql v n hv, outstandingIds, hnone]
    simp
  · rintro p rfl
    rw [h.purchases, claims, outstandingOf, hnone]
    simp

theorem stock_onSale {n : ℤ} (hn : 0 ≤ n) (v : VoucherId) (m : ℤ)
    (h : (onSale n).redis.stock v = some m) : (onSale n).db.stock v = some m ∧ 0 ≤ m := by
  refine ⟨h, ?_⟩
  simp only [onSale] at h
  split at h
  · cases h
    exact hn
  · exact absurd h (by simp)

theorem pipeline_refines_sale_sold_and_cancelled :
    ∃ t, run (step fun _ => false) (onSale 1) soldAndCancelled = some t ∧
      ∃ x, run Sale.step (Sale.opening (onSale 1).redis.stock (onSale 1).issued)
          (trace (step fun _ => false) shows (onSale 1) soldAndCancelled) = some x ∧
        x.Sound (onSale 1).redis.stock ∧ Shown t x := by
  obtain ⟨t, ht⟩ := Option.isSome_iff_exists.mp
    (show (run (step fun _ => false) (onSale 1) soldAndCancelled).isSome = true by decide +kernel)
  exact ⟨t, ht, pipeline_refines_sale (fun _ => false) (start_onSale 1) (fun _ => rfl)
    (stock_onSale (by omega)) ht⟩

end Hmdp.Pipeline
