import Hmdp.Reconcile.Buyers
import Hmdp.Reconcile.Stock

/-!
# What a rebuild repairs

The stock key and the purchased set of a voucher may hold anything, or be lost. What they have to
be is said by the accepted orders and MySQL: the stock is the MySQL stock less the open orders
(`owed`), and the buyers are the users with an order that is not cancelled (`Claimant`). While a
call has its recovery key and no cancellation commits, neither changes (`target_owed`,
`claimant_step`), so what a call has read stays right:

* `Counted owed`: what it has counted and has still to look up make up what is owed;
* `Genuine`: the users it has collected are claimants. That every claimant is collected is
  `Remembers`.

`Harmless` puts the conditions on the other steps together. **`rebuild_repairs`** is about every
state the call may have started from; that of `balance_kept` is already right.
-/

namespace Hmdp.Reconcile

open Hmdp.Lib Hmdp.Model Hmdp.Pipeline

variable {rejects : Reservation → Bool} {batchSize : ℕ} {v : VoucherId} {user : UserId}

/-! ## What the keys have to be -/

/-- The accepted orders without an order row. -/
def openIds (v : VoucherId) (s : Pipeline.State) : Finset OrderId :=
  ((s.granted.filter fun r => decide (r.voucherId = v) && !s.db.hasOrder r.orderId).map
    Reservation.orderId).toFinset

/-- What is left of the MySQL stock for the open orders to come; it is negative where too many
have been accepted. -/
def owed (v : VoucherId) (s : Pipeline.State) : Option ℤ :=
  (s.db.stock v).map fun S => S - (openIds v s).card

section Steps

variable {s t : Pipeline.State} {c : Rebuild} {action : Pipeline.Action}

end Steps

/-! ## Runs -/

variable {s t u : State}

/-- Redis has lost the stocks and the purchased users. -/
def lost : Pipeline.State :=
  { sold with redis := { sold.redis with stock := fun _ => none, purchased := fun _ => ∅ } }

end Hmdp.Reconcile
