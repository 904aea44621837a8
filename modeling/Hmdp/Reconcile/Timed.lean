import Hmdp.Lib.Machine
import Hmdp.Model.Reconciliation

/-!
# One `reconcileVoucher` call and the lifetimes of its keys

The call runs its commands (`Rebuild.advance`), and between any two of them time passes, and
others do what they like. Three keys expire: the recovery key, whose lease each `EXPIRE` of the
renewal script starts anew; the staging set, whose expiry time is set once, right after the
sentinel; and `seckill:order:<v>`, which takes over that of the staging set when the rebuild script
renames it. The clock counts milliseconds.

* **Commands**: `command` runs the next one; with `fail` it throws, carried out or not.
* **Others**: they may write every key and every table, but the staging key is named after a token
  nobody else has, and no other command removes or renews a recovery key that holds it.

A lease that is not positive is refused by `SET` with an error.
-/

namespace Hmdp.Reconcile.Timed

open Hmdp.Lib Hmdp.Model

/-! ## The call -/

/-- The arguments of a call, the token it draws and the two settings. -/
structure Call where
  voucherId : VoucherId
  mysqlStock : ℤ
  token : Text
  recoveryLeaseSeconds : ℤ
  redisUserBatchSize : ℤ

/-- The call without the clock. -/
def Call.rebuild (c : Call) (phase : Phase) : Rebuild :=
  ⟨c.voucherId, c.mysqlStock, c.token, phase⟩

/-- `Math.max(1, redisUserBatchSize)`. -/
def Call.batchSize (c : Call) : ℕ := (max 1 c.redisUserBatchSize).toNat

/-- Where the call stands. -/
inductive Pc where
  /-- `setIfAbsent` is next -/
  | start
  | running (phase : Phase)
  | returned (acquired : Bool)
  | thrown

/-- Where the call stands after a command of its `try` block. -/
def Pc.after : Progress → Pc
  | .next phase => .running phase
  | .done => .returned true
  | .thrown => .thrown

/-- The stores with the times their keys expire at, and where the call stands. -/
structure State where
  clock : ℤ
  redis : Redis
  db : Db
  /-- the expiry times of the recovery key, the staging set and `seckill:order:<v>` -/
  recoveryUntil : Option ℤ
  stagingUntil : Option ℤ
  orderUntil : Option ℤ
  pc : Pc

/-- The steps: time, the others, the next command, a failure. -/
inductive Action where
  | wait (milliseconds : ℕ)
  | others (redis : Redis) (db : Db) (recoveryUntil orderUntil : Option ℤ)
  | command
  | fail (applied : Bool)

/-! ## Time -/

/-- The key is gone when the clock shows `now`. -/
def due (now : ℤ) (deadline : Option ℤ) : Bool := deadline.any fun d => decide (d ≤ now)

/-- The expiry time of a key that is still there. -/
def left (now : ℤ) (deadline : Option ℤ) : Option ℤ := if due now deadline then none else deadline

/-- The clock shows `now`: what is due is gone. -/
def Call.elapse (c : Call) (now : ℤ) (s : State) : State :=
  { s with
    clock := now
    redis := { s.redis with
      recovery :=
        if due now s.recoveryUntil then Function.update s.redis.recovery c.voucherId none
        else s.redis.recovery
      purchased :=
        if due now s.orderUntil then Function.update s.redis.purchased c.voucherId ∅
        else s.redis.purchased
      staging :=
        if due now s.stagingUntil then (s.redis.setStaging c.voucherId c.token none).staging
        else s.redis.staging }
    recoveryUntil := left now s.recoveryUntil
    stagingUntil := left now s.stagingUntil
    orderUntil := left now s.orderUntil }

/-! ## Commands -/

/-- The recovery key holds the token of the call. -/
def Call.holds (c : Call) (redis : Redis) : Bool :=
  decide (redis.recovery c.voucherId = some c.token)

/-- The expiry time of the recovery key after a command that leaves `redis`. -/
def Call.recoveryUntil (c : Call) (s : State) (phase : Phase) (redis : Redis) : Option ℤ :=
  match phase with
  | .merging _ _ [] _ | .written _ _ =>
    if c.holds redis then some (s.clock + 1000 * c.recoveryLeaseSeconds) else s.recoveryUntil
  | _ => if (redis.recovery c.voucherId).isNone then none else s.recoveryUntil

/-- The expiry time of the staging set after a command that leaves `redis`: it is set once. -/
def Call.stagingUntil (c : Call) (s : State) (phase : Phase) (redis : Redis) : Option ℤ :=
  if (redis.staging c.voucherId c.token).isNone then none
  else
    match phase with
    | .sentinelAdded _ _ => some (s.clock + 1000 * max 60 (c.recoveryLeaseSeconds * 2))
    | _ => s.stagingUntil

/-- The expiry time of `seckill:order:<v>`: `RENAME` keeps that of the staging set. -/
def Call.orderUntil (c : Call) (s : State) (phase : Phase) : Option ℤ :=
  match phase with
  | .writing [] _ =>
    if c.holds s.redis then
      if s.redis.staged c.voucherId c.token = ∅ then none else s.stagingUntil
    else s.orderUntil
  | _ => s.orderUntil

/-- A command of the `try` block or its handler. -/
def Call.advance (c : Call) (phase : Phase) (s : State) : State :=
  let next := (c.rebuild phase).advance c.batchSize s.redis s.db
  { s with
    redis := next.1
    recoveryUntil := c.recoveryUntil s phase next.1
    stagingUntil := c.stagingUntil s phase next.1
    orderUntil := c.orderUntil s phase
    pc := Pc.after next.2 }

/-- The next command, carried out. -/
def Call.execute (c : Call) (s : State) : State :=
  match s.pc with
  | .start =>
    if c.recoveryLeaseSeconds ≤ 0 then { s with pc := .thrown }
    else
      let locked := lockRecovery c.voucherId c.token s.redis
      if locked.1 then
        { s with
          redis := locked.2
          recoveryUntil := some (s.clock + 1000 * c.recoveryLeaseSeconds)
          pc := .running .locked }
      else { s with pc := .returned false }
  | .running phase => c.advance phase s
  | .returned _ | .thrown => s

/-- Where an exception of the next command leads; `none` when the call is over. -/
def Pc.throw : Pc → Option Pc
  | .start => some .thrown
  | .running phase => some (Pc.after phase.throw)
  | .returned _ | .thrown => none

/-- One step; `none` where the action is not enabled. -/
def Call.step (c : Call) (s : State) : Action → Option State
  | .wait milliseconds => some (c.elapse (s.clock + milliseconds) s)
  | .others redis db recoveryUntil orderUntil =>
    let redis :=
      redis.setStaging c.voucherId c.token (s.redis.staging c.voucherId c.token)
    if c.holds s.redis then
      let recovery := Function.update redis.recovery c.voucherId (some c.token)
      some { s with redis := { redis with recovery := recovery }, db, orderUntil }
    else if c.holds redis then none
    else some { s with redis, db, recoveryUntil, orderUntil }
  | .command => s.pc.throw.map fun _ => c.execute s
  | .fail applied =>
    s.pc.throw.map fun pc => { if applied then c.execute s else s with pc := pc }

/-- The step is one of the call. -/
def Action.ofCall : Action → Bool
  | .command | .fail _ => true
  | .wait _ | .others _ _ _ _ => false

/-- The step is the rebuild script of the call, and the script returns 1. -/
def Call.rebuilds (c : Call) (s : State) (a : Action) : Bool :=
  match s.pc, a with
  | .running (.writing [] _), .command => c.holds s.redis
  | .running (.writing [] _), .fail true => c.holds s.redis
  | _, _ => false

end Hmdp.Reconcile.Timed
