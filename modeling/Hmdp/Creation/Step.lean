import Hmdp.Model.VoucherCreation
import Hmdp.Pipeline.Visible

/-!
# Creations of vouchers beside the running pipeline

Any number of calls of `addSeckillVoucher`, each one command at a time, and between any two of
them whatever the pipeline does, the relays' rounds among it, whose list of vouchers is that of the
committed rows. The activity hash is also written by the loads of querying clients, each a read of
the committed rows and later the write, and it expires. Each command of a call may throw, carried
out or not, and the JVM may crash at any point; a transaction that has not committed is then
rolled back.

A voucher has its row from the commit of its creation on, and nothing removes a row.

* `Safe`: the steps that sell nothing of a voucher without a row.
-/

namespace Hmdp.Creation

open Hmdp.Lib Hmdp.Model Hmdp.Pipeline

/-- A call, and the statement it has next; `none` where it is over. -/
structure Call where
  creation : VoucherCreation
  next : Option VoucherCreation.Statement
  deriving DecidableEq

/-- The pipeline with the creations and the loads under way. -/
structure State where
  pipeline : Pipeline.State
  /-- the call that has inserted the rows of a voucher -/
  creations : VoucherId → Option Call
  /-- the vouchers whose rows a load has read and not yet written to the hash -/
  loads : ℕ → Option VoucherId

/-- There is a committed row. -/
def State.committed (s : State) (v : VoucherId) : Prop := s.pipeline.db.stock v ≠ none

instance (s : State) (v : VoucherId) : Decidable (s.committed v) := by
  unfold State.committed
  infer_instance

/-- The steps of the pipeline, of a creation and of a load. -/
inductive Action where
  | pipeline (action : Pipeline.Action)
  /-- the access tokens are written by another feature -/
  | issueTokens (accessToken : VoucherId → UserId → Option Text)
  | create (voucherId : VoucherId) (request : Option Voucher)
  | advance (voucherId : VoucherId) (reply : Reply)
  | crash (voucherId : VoucherId)
  | readRows (load : ℕ) (voucherId : VoucherId)
  /-- the load writes what it has read -/
  | putAll (load : ℕ) (activity : Activity)
  | expireHash (voucherId : VoucherId)

/-- `loadVoucherIds` reads the committed rows; the hashes are written by the actions below. -/
def State.admits (s : State) : Pipeline.Action → Prop
  | .configure _ _ => False
  | .fetch _ v _ _ => s.committed v
  | _ => True

instance (s : State) (a : Pipeline.Action) : Decidable (s.admits a) := by
  cases a <;> unfold State.admits <;> infer_instance

/-- The creation of a voucher moves. -/
def State.setCall (s : State) (v : VoucherId) (call : Call) : State :=
  { s with creations := Function.update s.creations v (some call) }

/-- The activity hash of a voucher is written. -/
def State.setActivity (s : State) (v : VoucherId) (activity : ActivityMeta) : State :=
  { s with
    pipeline := { s.pipeline with
      redis := { s.pipeline.redis with
        activity := Function.update s.pipeline.redis.activity v activity } } }

/-- One step; `none` where the action is not enabled. A request that fails its checks and a load
that finds no row change nothing. -/
def step (rejects : Reservation → Bool) (s : State) : Action → Option State
  | .pipeline action =>
    if s.admits action then
      (Pipeline.step rejects s.pipeline action).map fun p => { s with pipeline := p }
    else none
  | .issueTokens accessToken =>
    some { s with
      pipeline := { s.pipeline with
        redis := { s.pipeline.redis with accessToken := accessToken } } }
  | .create v request =>
    if s.committed v then none
    else
      match s.creations v with
      | some _ => none
      | none =>
        match validateNewSeckillVoucher request with
        | .error _ => some s
        | .ok voucher => some (s.setCall v ⟨⟨voucher, false, false⟩, some .setStock⟩)
  | .advance v reply =>
    match s.creations v with
    | some ⟨creation, some statement⟩ =>
      let next := (VoucherCreation.Stores.mk creation s.pipeline.redis s.pipeline.db).execute v
        statement reply
      some { s.setCall v ⟨next.1.creation, next.2⟩ with
        pipeline := { s.pipeline with redis := next.1.redis, db := next.1.db } }
    | _ => none
  | .crash v =>
    match s.creations v with
    | none => none
    | some call => some (s.setCall v { call with next := none })
  | .readRows i v =>
    if s.committed v then some { s with loads := Function.update s.loads i (some v) } else some s
  | .putAll i activity =>
    match s.loads i with
    | none => none
    | some v =>
      some { s.setActivity v activity.toMeta with loads := Function.update s.loads i none }
  | .expireHash v =>
    match s.creations v with
    | none => some (s.setActivity v .absent)
    | some call =>
      some ((s.setActivity v .absent).setCall v
        { call with creation := { call.creation with hash := false } })

/-- `seckill.lua` sells by the keys of a creation: both are there, the call comes within the sale
times, and nothing else refuses it. -/
def Sells (creation : VoucherCreation) (redis : Redis) (c : SeckillCall) : Prop :=
  creation.stockKey = true ∧ creation.hash = true ∧ 0 < creation.voucher.stock ∧
    creation.voucher.activity.status = 1 ∧
    creation.voucher.activity.beginTime ≤ c.currentTime ∧
    c.currentTime ≤ creation.voucher.activity.endTime ∧
    redis.recovery c.voucherId = none ∧
    (c.accessTokenEnabled = true →
      redis.accessToken c.voucherId c.userId = some c.accessToken)

instance (creation : VoucherCreation) (redis : Redis) (c : SeckillCall) :
    Decidable (Sells creation redis c) := by
  unfold Sells
  infer_instance

/-- **The steps that sell nothing of `v` while it has no row**: no `seckill.lua` call comes within
the sale times between the `HSET` of the creation and its commit, or the `DEL`s of the
compensation. -/
def Safe (v : VoucherId) (s : State) : Action → Prop
  | .pipeline (.seckill c) =>
    c.voucherId = v → ¬s.committed v → ∀ call ∈ s.creations v,
      ¬Sells call.creation s.pipeline.redis c
  | _ => True

instance (v : VoucherId) (s : State) (a : Action) : Decidable (Safe v s a) := by
  unfold Safe
  split <;> infer_instance

/-- Nothing has been sold, no creation and no load is under way, and a voucher without a row has
no key. -/
structure Start (s : State) : Prop where
  pipeline : Pipeline.Start s.pipeline
  creations : ∀ v, s.creations v = none
  loads : ∀ i, s.loads i = none
  stock : ∀ v, ¬s.committed v → s.pipeline.redis.stock v = none
  activity : ∀ v, ¬s.committed v → s.pipeline.redis.activity v = .absent
  purchased : ∀ v, ¬s.committed v → s.pipeline.redis.purchased v = ∅

end Hmdp.Creation
