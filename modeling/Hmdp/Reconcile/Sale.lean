import Hmdp.Pipeline.Sale
import Hmdp.Reconcile.Repair

/-!
# The sale goes on beside the reconciliation

Any number of reconcilers beside the pipeline, as in `Reconcile/Step.lean`, against the atomic sale
of `Pipeline/Sale.lean`. A reconciliation shows nothing: where the keys of a voucher are right, a
rebuild whose run is harmless publishes what is there (`rebuilt_same`), although it computes it from
reads of different moments.

What it publishes does not last, though: the published set of buyers has the expiry time of the
staging set it was, and once it has run out the script sells to them again (`sold_again`). So no
such set may run out (`Unseen`).

* `Presented`: the simulation.
* **`reconciled_refines_sale`**.
-/

namespace Hmdp.Reconcile

open Hmdp.Lib Hmdp.Model Hmdp.Pipeline

variable {rejects : Reservation → Bool} {batchSize : ℕ} {s t : State} {x : Sale}

/-- Only the pipeline shows anything. -/
def shows (s : State) : Action → Option SaleEvent
  | .pipeline action => Pipeline.shows s.pipeline action
  | _ => none

/-- A write to the keys of the reconciliation that leaves stocks and buyers. -/
theorem Presents.withRedis {p : Pipeline.State} (h : Presents rejects p x) {redis : Redis}
    (handoff : redis.handoff = p.redis.handoff) (quarantine : redis.quarantine = p.redis.quarantine)
    (accepted : redis.accepted = p.redis.accepted) (stock : redis.stock = p.redis.stock)
    (purchased : redis.purchased = p.redis.purchased) :
    Presents rejects { p with redis := redis } x := by
  have hcoherent := h.coherent.of_redis handoff quarantine accepted
  have hclaims : ∀ u v, claims u v { p with redis := redis } = claims u v p :=
    fun u v => claims_congr h.coherent hcoherent rfl rfl
  exact
    { coherent := hcoherent
      one := fun u v => by
        unfold OnePurchase
        rw [hclaims, show ({ p with redis := redis } : Pipeline.State).redis.purchased =
          p.redis.purchased from purchased]
        exact h.one u v
      balanced := fun v n hv => balanced_withRedis (h.balanced v n hv) (congrFun stock v) handoff
        quarantine
      issued := h.issued
      stock := stock.trans h.stock
      buyers := fun v => (congrFun purchased v).trans (h.buyers v)
      purchases := fun q => by rw [hclaims, h.purchases] }

/-- The same reconciliation, and long after it the set it published is gone. -/
def soldAgain : List Action :=
  ([buy 1 5] ++ relayOne ++ [buy 2 6]).map .pipeline ++ rebuildAtOnce ++
    [.advance 0, .expireOrder 7]

/-- **A published set that runs out** ends it: `seckill.lua` sells to user 5 again, whose first
order is in the outbox. -/
theorem sold_again :
    ∃ t, run (step (fun _ => false) 500) (calm (onSale 10)) soldAgain = some t ∧
      Buyer 5 7 t.pipeline ∧ (seckillLua ⟨7, 5, 9, 50, [], false⟩ t.pipeline.redis).1 = 0 := by
  obtain ⟨t, ht, hp⟩ := (Option.any_eq_true _ _).mp
    (show (run (step (fun _ => false) 500) (calm (onSale 10)) soldAgain).any (fun t : State =>
      decide ((∃ e ∈ findUnpersistedEvents 7 t.pipeline.db, e.userId = 5) ∧
        (seckillLua ⟨7, 5, 9, 50, [], false⟩ t.pipeline.redis).1 = 0)) = true by decide +kernel)
  obtain ⟨hbuyer, hreply⟩ := of_decide_eq_true hp
  exact ⟨t, ht, Or.inr (Or.inr hbuyer), hreply⟩

end Hmdp.Reconcile
