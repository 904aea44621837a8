import Hmdp.Consumer.Persist
import Hmdp.Lib.Machine

/-!
# Is the database the last guard of one order per person?

V4 drops `uk_user_voucher`, so nothing in the schema keeps a user from a second live order of a
voucher. What is left is the consumer's verification, and it looks only at groups that repeat an
order id already stored. A batch of fresh order ids is inserted as it is, and nothing compares
it with the live rows: `second_order_is_persisted` is two calls that leave two live orders of one
user.

`one_live_order_iff` says exactly when the calls of a run do keep the law: iff no accepted batch
brings a fresh order of a user who has a live order of the voucher, or two of them.
-/

namespace Hmdp.Consumer

open Hmdp.Lib Hmdp.Model

/-! ## Runs of the consumer -/

/-- One call of `createOrders`. -/
structure ConsumerCall where
  tx : Transaction
  messages : List SeckillOrderMessage

/-- The committed state after a call: an exception rolls it back. -/
def consume (db : Db) (c : ConsumerCall) : Option Db :=
  match createOrders c.tx c.messages db with
  | .ok r => some r.2
  | .error _ => some db

/-- No two rows with `status <> 4` share user and voucher. -/
def OneLiveOrder (rows : List VoucherOrder) : Prop :=
  ∀ r ∈ rows, ∀ s ∈ rows, r.status ≠ .cancelled → s.status ≠ .cancelled →
    r.userId = s.userId → r.voucherId = s.voucherId → r = s

instance (rows : List VoucherOrder) : Decidable (OneLiveOrder rows) :=
  inferInstanceAs (Decidable (∀ r ∈ rows, ∀ s ∈ rows, r.status ≠ .cancelled →
    s.status ≠ .cancelled → r.userId = s.userId → r.voucherId = s.voucherId → r = s))

/-- The call leaves at most one live order per user and voucher if it returns normally. -/
def KeepsOneLiveOrder (db : Db) (c : ConsumerCall) : Prop :=
  ∀ r, createOrders c.tx c.messages db = .ok r → OneLiveOrder r.2.orders.rows

/-- The fresh orders of the batch are the first live ones of their users: no live row and no
other fresh order has the same user and voucher. -/
structure FirstPurchases (db : Db) (messages : List SeckillOrderMessage) : Prop where
  batch : ∀ a ∈ freshOrders db (uniqueOrders messages),
    ∀ b ∈ freshOrders db (uniqueOrders messages), a.agrees b → a.id = b.id
  table : ∀ a ∈ freshOrders db (uniqueOrders messages), ∀ r ∈ db.orders.rows,
    r.status ≠ .cancelled → r.userId = a.userId → r.voucherId ≠ a.voucherId

/-! ## One call -/

theorem row_status (o : OrderDraft) (now : Time) : (o.row now).status ≠ .cancelled := by
  simp [OrderDraft.row]

/-- **One call**: from a table that meets the law, the call keeps it iff, when its batch is
accepted, the fresh orders are first purchases. -/
theorem keepsOneLiveOrder_iff {db : Db} {c : ConsumerCall} (hdb : OneLiveOrder db.orders.rows) :
    KeepsOneLiveOrder db c ↔ (Accepted c.tx db c.messages → FirstPurchases db c.messages) := by
  constructor
  · intro h ha
    obtain ⟨⟨os, db'⟩, hr⟩ := createOrders_ok_iff.mpr ha
    have hone := h _ hr
    have hnew : ∀ a ∈ freshOrders db (uniqueOrders c.messages),
        a.row (c.tx.insertTime a.voucherId) ∈ db'.orders.rows := by
      intro a ha
      exact (createOrders_mem_rows hr).mpr (Or.inr ⟨a, ha, rfl⟩)
    constructor
    · intro a ha b hb hab
      have heq := hone _ (hnew a ha) _ (hnew b hb) (row_status _ _) (row_status _ _) hab.2 hab.1
      exact congrArg VoucherOrder.id heq
    · intro a ha r hr' hlive hu hv
      have hold := (createOrders_mem_rows hr).mpr (Or.inl hr')
      have heq := hone r hold _ (hnew a ha) hlive (row_status _ _) hu hv
      have hfresh := Db.not_hasOrder_iff.mp (mem_freshOrders.mp ha).2 r hr'
      exact hfresh (congrArg VoucherOrder.id heq)
  · rintro h ⟨os, db'⟩ hr
    have hfirst := h (createOrders_ok_iff.mp ⟨_, hr⟩)
    intro r hr₁ s hs₁ hrl hsl hu hv
    rcases (createOrders_mem_rows hr).mp hr₁ with hr₁ | ⟨a, ha, rfl⟩
    · rcases (createOrders_mem_rows hr).mp hs₁ with hs₁ | ⟨b, hb, rfl⟩
      · exact hdb r hr₁ s hs₁ hrl hsl hu hv
      · exact absurd hv (hfirst.table b hb r hr₁ hrl hu)
    · rcases (createOrders_mem_rows hr).mp hs₁ with hs₁ | ⟨b, hb, rfl⟩
      · exact absurd hv.symm (hfirst.table a ha s hs₁ hsl hu.symm)
      · have hid : a.id = b.id := hfirst.batch a ha b hb ⟨hv, hu⟩
        have hids := uniqueOrders_nodup c.messages
        rw [List.inj_on_of_nodup_map hids (mem_freshOrders.mp ha).1 (mem_freshOrders.mp hb).1 hid]

theorem preserves_oneLiveOrder :
    Preserves consume KeepsOneLiveOrder fun db => OneLiveOrder db.orders.rows := by
  intro db c db' hkeep hdb hstep
  unfold consume at hstep
  cases hr : createOrders c.tx c.messages db with
  | ok r =>
    simp only [hr, Option.some.injEq] at hstep
    subst hstep
    exact hkeep r hr
  | error e =>
    simp only [hr, Option.some.injEq] at hstep
    subst hstep
    exact hdb

/-! ## Runs -/

/-- **When the consumer alone keeps one live order per person**: in a run of calls from an empty
order table, every call that returns normally leaves at most one live order per user and voucher
iff the fresh orders of every accepted batch are first purchases. -/
theorem one_live_order_iff (db : Db) (hempty : db.orders.rows = []) (calls : List ConsumerCall) :
    Along consume KeepsOneLiveOrder db calls ↔
      Along consume (fun d c => Accepted c.tx d c.messages → FirstPurchases d c.messages)
        db calls := by
  have hstart : OneLiveOrder db.orders.rows := by
    rw [hempty]
    intro r hr
    exact absurd hr (by simp)
  exact along_congr (I := fun d => OneLiveOrder d.orders.rows)
    (fun d c hd => keepsOneLiveOrder_iff hd) preserves_oneLiveOrder hstart

/-! ### Two calls that leave two live orders -/

/-- A stock of 2 for voucher 7 and no orders. -/
def twoInStock : Db := { Db.empty with stock := fun v => if v = 7 then some 2 else none }

/-- The message of one order of user 5 for voucher 7. -/
def messageOf (orderId : OrderId) : SeckillOrderMessage :=
  ⟨none, none, some orderId, some 7, some 5, some false, 0⟩

/-- The transaction at time 0, taking the first of the newest rows. -/
def atZero : Transaction := ⟨NewestFirst.first, fun _ => 0, 0⟩

theorem one_live_order_two_calls :
    Along consume KeepsOneLiveOrder twoInStock [⟨atZero, [messageOf 1]⟩, ⟨atZero, [messageOf 2]⟩] ↔
      Along consume (fun d c => Accepted c.tx d c.messages → FirstPurchases d c.messages)
        twoInStock [⟨atZero, [messageOf 1]⟩, ⟨atZero, [messageOf 2]⟩] :=
  one_live_order_iff twoInStock rfl _

/-- **The law fails**: two calls, each with one complete message of a new order id of user 5 for
voucher 7, both return normally and leave two live orders. -/
theorem second_order_is_persisted :
    ¬∀ (db : Db) (calls : List ConsumerCall), db.orders.rows = [] →
      Along consume KeepsOneLiveOrder db calls := by
  intro h
  have hrun := h twoInStock [⟨atZero, [messageOf 1]⟩, ⟨atZero, [messageOf 2]⟩] rfl
  obtain ⟨-, hnext⟩ := hrun
  obtain ⟨hsecond, -⟩ := hnext _ rfl
  have hone := hsecond _ rfl
  exact absurd hone (by decide +kernel)

end Hmdp.Consumer
