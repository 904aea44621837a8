import Hmdp.Model.StockAdjustment
import Hmdp.Pipeline.Conservation

/-!
# Stock adjustments beside the running pipeline

Any number of calls of `updateSeckillVoucherStock`, each one command at a time, and between any two
of them whatever the pipeline does: `seckill.lua` calls, relay rounds, consumer transactions,
cancellations. The row lock of a voucher is held from the statement to the end of the
transaction; a transaction of the pipeline that writes the row of a locked voucher waits. Each
command of a call may throw, carried out or not.

`finished` is a ghost: what each call that is over has added to the two stocks.

* `Safe`: the steps that keep the stocks in step.
-/

namespace Hmdp.Stock

open Hmdp.Lib Hmdp.Model Hmdp.Pipeline Adjustment

/-- What a call has come to. -/
structure Outcome where
  call : Adjustment
  /-- its transaction has committed -/
  committed : Bool
  /-- what it has added to `tb_seckill_voucher.stock` -/
  stored : ℤ
  deriving DecidableEq

/-- The pipeline with the updates of the stock under way. -/
structure State where
  pipeline : Pipeline.State
  calls : ℕ → Adjustment.Phase
  /-- the vouchers whose row is locked -/
  rowLocks : Finset VoucherId
  finished : List Outcome

/-- The steps of the pipeline, and each statement of an update. -/
inductive Action where
  | pipeline (action : Pipeline.Action)
  | adjust (process : ℕ) (voucherId : VoucherId) (changeStock : ℤ)
  | increment (process : ℕ) (reply : Reply)
  | takeBack (process : ℕ) (reply : Reply)
  | commit (process : ℕ) (reply : Reply)
  | rollback (process : ℕ)
  | afterCompletion (process : ℕ) (reply : Reply)

/-- The pipeline with another Redis. -/
def State.withRedis (s : State) (redis : Redis) : State :=
  { s with pipeline := { s.pipeline with redis := redis } }

/-- The pipeline with other tables. -/
def State.withDb (s : State) (db : Db) : State :=
  { s with pipeline := { s.pipeline with db := db } }

/-- An update begins, moves or ends. -/
def State.setCall (s : State) (i : ℕ) (phase : Adjustment.Phase) : State :=
  { s with calls := Function.update s.calls i phase }

/-- The lock on the voucher's row is given up. -/
def State.unlock (s : State) (v : VoucherId) : State := { s with rowLocks := s.rowLocks.erase v }

/-- An update ends with the outcome. -/
def State.finish (s : State) (i : ℕ) (outcome : Outcome) : State :=
  { s.setCall i .idle with finished := outcome :: s.finished }

/-- One step; `none` where the action is not enabled. A request that changes nothing or that the
statement refuses returns a failure. -/
def step (rejects : Reservation → Bool) (s : State) : Action → Option State
  | .pipeline action =>
    (Pipeline.step rejects s.pipeline action).bind fun p =>
      if ∀ v ∈ s.rowLocks, p.db.stock v = s.pipeline.db.stock v then
        some { s with pipeline := p }
      else none
  | .adjust i v changeStock =>
    match s.calls i with
    | .idle =>
      if changeStock = 0 then some s
      else if v ∈ s.rowLocks then none
      else
        match Adjustment.start v changeStock s.pipeline.db with
        | none => some s
        | some call =>
          some { s.setCall i (.adjusted call) with rowLocks := insert v s.rowLocks }
    | _ => none
  | .increment i reply =>
    match s.calls i with
    | .adjusted call =>
      let next := call.increment s.pipeline.redis reply
      some ((s.withRedis next.1).setCall i next.2)
    | _ => none
  | .takeBack i reply =>
    match s.calls i with
    | .negative call =>
      let next := call.compensate s.pipeline.redis reply
      some ((s.withRedis next.1).setCall i (.thrown next.2))
    | _ => none
  | .commit i reply =>
    match s.calls i with
    | .registered call =>
      let stored := call.stored s.pipeline.db
      match reply with
      | .returns =>
        some (((s.withDb (call.write s.pipeline.db)).unlock call.voucherId).finish i
          ⟨call, true, stored⟩)
      | .throws true =>
        some (((s.withDb (call.write s.pipeline.db)).unlock call.voucherId).setCall i
          (.completing call true stored))
      | .throws false =>
        some ((s.unlock call.voucherId).setCall i (.completing call false 0))
    | _ => none
  | .rollback i =>
    match s.calls i with
    | .thrown call => some ((s.unlock call.voucherId).finish i ⟨call, false, 0⟩)
    | _ => none
  | .afterCompletion i reply =>
    match s.calls i with
    | .completing call committed stored =>
      let next := call.compensate s.pipeline.redis reply
      some ((s.withRedis next.1).finish i ⟨next.2, committed, stored⟩)
    | _ => none

/-- No adjustment is in flight. -/
structure Start (rejects : Reservation → Bool) (s : State) : Prop where
  coherent : Coherent rejects s.pipeline
  idle : ∀ i, s.calls i = .idle
  unlocked : s.rowLocks = ∅
  finished : s.finished = []

/-- `INCRBY` of the change finds the stock key. -/
def findsKey (redis : Redis) : Adjustment.Phase → Bool
  | .adjusted call => (redis.stock call.voucherId).isSome
  | _ => true

/-- The step keeps the stocks in step: `INCRBY` finds a key, and its reply is not lost once it is
carried out; a compensation is carried out; a commit that is carried out is reported. -/
def Safe (s : State) : Action → Prop
  | .increment i reply =>
    reply ≠ .throws true ∧ findsKey s.pipeline.redis (s.calls i) = true
  | .takeBack _ reply => reply ≠ .throws false
  | .commit _ reply => reply ≠ .throws true
  | .afterCompletion _ reply => reply ≠ .throws false
  | _ => True

instance (s : State) (a : Action) : Decidable (Safe s a) := by
  cases a <;> unfold Safe <;> infer_instance

end Hmdp.Stock
