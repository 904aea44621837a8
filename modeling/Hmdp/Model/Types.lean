import Mathlib.Algebra.Group.Int.Defs
import Mathlib.Data.Int.Notation
import Mathlib.Data.Nat.Notation

/-!
# Data model of the seckill pipeline

The identifiers, the order and outbox rows and the Kafka message, field by field as the entities
have them. Identifiers are the 64-bit `Long` of the code; user and voucher ids come from
unsigned columns, so a row stores them as given. `Time` is a point in time of the resolution a
column or a clock has. Columns no modelled statement reads (`pay_type`, the payment times) are
left out.
-/

namespace Hmdp.Model

/-- Java `long`. -/
abbrev Long := Int64

/-- A property of all ids of a list is decided along the list, not over all 64-bit numbers. -/
instance {p : Long → Prop} [DecidablePred p] (ids : List Long) : Decidable (∀ id ∈ ids, p id) :=
  List.decidableBAll p ids

/-- And one of an optional value of the value, if there is one. -/
instance decidableForallMemOption {α : Type} {p : α → Prop} [DecidablePred p] (value : Option α) :
    Decidable (∀ a ∈ value, p a) :=
  Option.decidableForallMem value

/-- `tb_voucher_order.id` -/
abbrev OrderId := Long

/-- `tb_voucher.id` -/
abbrev VoucherId := Long

/-- `tb_user.id` -/
abbrev UserId := Long

/-- A Java string, or a Redis value. -/
abbrev Text := List Char

instance : LawfulBEq Text := inferInstance

instance : LawfulBEq (Long × Long) := inferInstance

/-- `String.length`, in UTF-16 units. -/
def javaLength (text : Text) : ℕ :=
  text.length + text.countP fun c => decide (0x10000 ≤ c.toNat)

/-- `value.substring(0, n)` as it reaches a column: half a surrogate pair at the end is written as
`?`. -/
def javaPrefix : ℕ → Text → Text
  | 0, _ => []
  | _ + 1, [] => []
  | n + 1, c :: text =>
    if c.toNat < 0x10000 then c :: javaPrefix n text
    else if n = 0 then ['?']
    else c :: javaPrefix (n - 1) text

/-- A point in time, in the unit of the clock that is read. -/
abbrev Time := ℤ

/-- How a call of another server ends; a call that throws may have been carried out. -/
inductive Reply where
  | returns
  | throws (applied : Bool)
  deriving DecidableEq

/-- What identifies an accepted order in every store it passes through. -/
structure Reservation where
  orderId : OrderId
  voucherId : VoucherId
  userId : UserId
  autoIssued : Bool
  deriving DecidableEq

/-- `tb_seckill_order_outbox.status`. -/
inductive OutboxStatus where
  | pending
  | sent
  | completed
  | manualReview
  deriving DecidableEq

/-- `tb_voucher_order.status`, 1 to 6; a new row has the column default 1. -/
inductive OrderStatus where
  | unpaid
  | paid
  | used
  | cancelled
  | refunding
  | refunded
  deriving DecidableEq, Inhabited

/-- A row of `tb_voucher_order`. -/
structure VoucherOrder where
  id : OrderId
  userId : UserId
  voucherId : VoucherId
  status : OrderStatus
  createTime : Time
  deriving DecidableEq

/-- `status <> 4`. -/
def VoucherOrder.live (o : VoucherOrder) : Bool := decide (o.status ≠ .cancelled)

/-- A `VoucherOrder` the consumer has built and not yet inserted. -/
structure OrderDraft where
  id : OrderId
  voucherId : VoucherId
  userId : UserId
  autoIssued : Bool
  deriving DecidableEq

/-- `SeckillOrderOutboxEvent` before its insert. -/
structure SeckillOrderOutboxEvent where
  eventId : Text
  orderId : OrderId
  voucherId : VoucherId
  userId : UserId
  autoIssued : Bool
  status : OutboxStatus
  retryCount : ℕ
  nextRetryTime : Time
  lastError : Option Text
  relayOwner : Option Text
  relayLeaseUntil : Option Time
  createdTime : Time
  updatedTime : Time
  sentTime : Option Time
  completedTime : Option Time
  deriving DecidableEq

/-- The order an event stands for. -/
def SeckillOrderOutboxEvent.reservation (e : SeckillOrderOutboxEvent) : Reservation :=
  ⟨e.orderId, e.voucherId, e.userId, e.autoIssued⟩

/-- A row of `tb_seckill_order_outbox`: an event with its `AUTO_INCREMENT` id. -/
structure OutboxRow extends SeckillOrderOutboxEvent where
  id : ℕ
  deriving DecidableEq

/-- `SeckillOrderMessage`; every reference field may be null. -/
structure SeckillOrderMessage where
  eventId : Option Text
  outboxId : Option ℕ
  orderId : Option OrderId
  voucherId : Option VoucherId
  userId : Option UserId
  autoIssued : Option Bool
  occurredAtEpochMillis : ℤ
  deriving DecidableEq

/-- `SeckillOrderOutboxRelay.toMessage`; a message of before `outboxId` was added lacks it. -/
def OutboxRow.toMessage (e : OutboxRow) (withOutboxId : Bool) : SeckillOrderMessage where
  eventId := some e.eventId
  outboxId := if withOutboxId then some e.id else none
  orderId := some e.orderId
  voucherId := some e.voucherId
  userId := some e.userId
  autoIssued := some e.autoIssued
  occurredAtEpochMillis := e.createdTime

/-- `INSERT … VALUES (id, user_id, voucher_id)`: the other columns take their defaults. -/
def OrderDraft.row (now : Time) (o : OrderDraft) : VoucherOrder :=
  ⟨o.id, o.userId, o.voucherId, .unpaid, now⟩

end Hmdp.Model
