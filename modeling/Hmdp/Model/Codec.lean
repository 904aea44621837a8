import Hmdp.Lib.Decimal
import Hmdp.Model.Types
import Mathlib.Data.List.Basic

/-!
# The text of a handoff member

`seckill.lua` writes a member of the handoff sorted set as `orderId|userId|0`; the relay and the
reconciliation read it back with `SeckillOrderHandoffService.parse`. `Long.toString` is the
shortest decimal text and `Long.valueOf` accepts an optional sign and any decimal digits of the
basic multilingual plane, within the 64-bit range.

* `parse_buildMember`: a member that was built parses to the order it was built from.
* `buildMember_injective`: different orders of one voucher have different members.
-/

namespace Hmdp.Model

open Hmdp.Lib

/-! ## `Long.toString` and `Long.valueOf` -/

/-- The code point of the digit zero of each run of ten decimal digits that
`Character.digit(char, 10)` knows. -/
def digitZeros : List ℕ :=
  [0x30, 0x660, 0x6F0, 0x7C0, 0x966, 0x9E6, 0xA66, 0xAE6, 0xB66, 0xBE6, 0xC66, 0xCE6, 0xD66,
    0xE50, 0xED0, 0xF20, 0x1040, 0x1090, 0x17E0, 0x1810, 0x1946, 0x19D0, 0x1A80, 0x1A90, 0x1B50,
    0x1BB0, 0x1C40, 0x1C50, 0xA620, 0xA8D0, 0xA900, 0xA9D0, 0xAA50, 0xABF0, 0xFF10]

/-- `Character.digit(c, 10)`. -/
def digit (c : Char) : Option ℕ :=
  (digitZeros.find? fun z => decide (z ≤ c.toNat ∧ c.toNat < z + 10)).map fun z => c.toNat - z

/-- `Long.toString`. -/
def Long.toText (l : Long) : Text := printInt l.toInt

/-- `Long.valueOf`; `none` is the `NumberFormatException`. -/
def Long.valueOf (t : Text) : Option Long :=
  (readInt digit t).bind fun i =>
    if -(2 : ℤ) ^ 63 ≤ i ∧ i < (2 : ℤ) ^ 63 then some (Int64.ofInt i) else none

theorem asciiDigits_digit : AsciiDigits digit := by
  intro c hc
  have h : 0x30 ≤ c.toNat ∧ c.toNat < 0x30 + 10 := by
    simp only [Char.isDigit, Bool.and_eq_true, decide_eq_true_eq] at hc
    obtain ⟨h0, h9⟩ := hc
    have h0' : (48 : UInt32).toNat ≤ c.val.toNat := UInt32.le_iff_toNat_le.mp h0
    have h9' : c.val.toNat ≤ (57 : UInt32).toNat := UInt32.le_iff_toNat_le.mp h9
    exact ⟨h0', Nat.lt_succ_of_le h9'⟩
  unfold digit digitZeros
  rw [List.find?_cons_of_pos (by simpa using h)]
  rfl

/-- **`Long.valueOf` inverts `Long.toString`.** -/
theorem Long.valueOf_toText (l : Long) : Long.valueOf l.toText = some l := by
  unfold Long.valueOf Long.toText
  rw [readInt_printInt asciiDigits_digit, Option.bind_some,
    if_pos ⟨Int64.le_toInt l, Int64.toInt_lt l⟩, Int64.ofInt_toInt]

theorem Long.toText_injective {a b : Long} (h : a.toText = b.toText) : a = b := by
  have := Long.valueOf_toText a
  rw [h, Long.valueOf_toText b] at this
  exact (Option.some.inj this).symm

theorem Long.separator_not_mem_toText (l : Long) : '|' ∉ l.toText := by
  intro h
  rcases mem_printInt h with h | h
  · exact absurd h (by decide)
  · exact absurd h (by decide)

/-! ## Members -/

/-- `autoIssued ? "1" : "0"`. -/
def flagText (autoIssued : Bool) : Text := if autoIssued then ['1'] else ['0']

/-- `SeckillOrderHandoffService.buildMember`. -/
def buildMember (orderId : OrderId) (userId : UserId) (autoIssued : Bool) : Text :=
  orderId.toText ++ '|' :: (userId.toText ++ '|' :: flagText autoIssued)

/-- The member that stands for an accepted order. -/
def Reservation.member (r : Reservation) : Text := buildMember r.orderId r.userId r.autoIssued

/-- `SeckillOrderOutboxEvent.pending`, with the time it reads. -/
def SeckillOrderOutboxEvent.pending (now : Time) (r : Reservation) : SeckillOrderOutboxEvent where
  eventId := r.orderId.toText
  orderId := r.orderId
  voucherId := r.voucherId
  userId := r.userId
  autoIssued := r.autoIssued
  status := .pending
  retryCount := 0
  nextRetryTime := now
  lastError := none
  relayOwner := none
  relayLeaseUntil := none
  createdTime := now
  updatedTime := now
  sentTime := none
  completedTime := none

/-- What `SeckillOrderHandoffService.parse` reads off a member, before it stamps the event. -/
def parseMember (voucherId : VoucherId) (member : Text) : Option Reservation :=
  match member.splitOn '|' with
  | [orderText, userText, flag] =>
    (Long.valueOf orderText).bind fun orderId =>
      (Long.valueOf userText).map fun userId =>
        ⟨orderId, voucherId, userId, decide (flag = ['1'])⟩
  | _ => none

/-- `SeckillOrderHandoffService.parse`. -/
def parse (now : Time) (voucherId : VoucherId) (member : Text) : Option SeckillOrderOutboxEvent :=
  (parseMember voucherId member).map (SeckillOrderOutboxEvent.pending now)

@[simp] theorem pending_reservation (now : Time) (r : Reservation) :
    (SeckillOrderOutboxEvent.pending now r).reservation = r := rfl

theorem splitOn_buildMember (o : OrderId) (u : UserId) (a : Bool) :
    (buildMember o u a).splitOn '|' = [o.toText, u.toText, flagText a] := by
  have hsep : ∀ l ∈ [o.toText, u.toText, flagText a], '|' ∉ l := by
    intro l hl
    rcases List.mem_cons.mp hl with rfl | hl
    · exact Long.separator_not_mem_toText o
    rcases List.mem_cons.mp hl with rfl | hl
    · exact Long.separator_not_mem_toText u
    rw [List.mem_singleton.mp hl]
    cases a <;> decide
  rw [← List.splitOn_intercalate '|' hsep (by simp)]
  simp [buildMember, List.intercalate, List.intersperse]

/-- **Round trip**: a built member parses to its order. -/
theorem parse_buildMember (v : VoucherId) (o : OrderId) (u : UserId) (a : Bool) :
    parseMember v (buildMember o u a) = some ⟨o, v, u, a⟩ := by
  unfold parseMember
  rw [splitOn_buildMember]
  simp only [Long.valueOf_toText, Option.bind_some, Option.map_some]
  cases a <;> rfl

@[simp] theorem parseMember_member (r : Reservation) :
    parseMember r.voucherId r.member = some r :=
  parse_buildMember r.voucherId r.orderId r.userId r.autoIssued

/-- A member determines its order within a voucher. -/
theorem buildMember_injective {r s : Reservation} (hv : r.voucherId = s.voucherId)
    (h : r.member = s.member) : r = s := by
  have hr := parseMember_member r
  rw [h, hv, parseMember_member s] at hr
  exact (Option.some.inj hr).symm

end Hmdp.Model
