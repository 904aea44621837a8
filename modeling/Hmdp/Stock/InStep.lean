import Hmdp.Lib.InFlight
import Hmdp.Stock.Step

/-!
# Adjustments keep both stocks in step

What a call has added to the Redis stock and not yet to the row is in flight. The ledger of a
voucher is out of balance by just what is in flight on it (`Inv.ledger`): `INCRBY` puts the change
in flight, and the commit or the compensation lands it. The row lock keeps the row as the statement
found it, so the commit adds the change and nothing else (`Locks`).

* **`in_step`**: in a run whose steps are all `Safe`, a call that is over has added its change to
  both stocks or to none, and at rest the ledger is balanced as it was at the start.
* **`reply_lost`**, **`key_left_behind`**: an `INCRBY` whose reply is lost is never taken back, and
  the key that `INCRBY` has made for a missing one is never removed.
-/

namespace Hmdp.Stock

open Hmdp.Lib Hmdp.Model Hmdp.Pipeline Adjustment

variable {rejects : Reservation → Bool} {s t : State} {v : VoucherId}

/-! ## What is in flight -/

/-- What a call has added to the Redis stock of `v` and not to the row. -/
def carried (v : VoucherId) : Adjustment.Phase → ℤ
  | .idle => 0
  | .adjusted call | .negative call | .registered call | .thrown call =>
    if call.voucherId = v then call.added else 0
  | .completing call _ stored => if call.voucherId = v then call.added - stored else 0

/-- The call has added nothing yet, or it has added its change to an existing key. -/
def PhaseOk : Adjustment.Phase → Prop
  | .idle => True
  | .adjusted call | .thrown call => call.added = 0 ∧ call.created = false
  | .negative call | .registered call => call.added = call.changeStock ∧ call.created = false
  | .completing call committed stored =>
    call.added = call.changeStock ∧ call.created = false ∧ committed = false ∧ stored = 0

/-- **The law for one call**: its change went into both stocks, or into none, and no key is left
that was not there. -/
def Outcome.InStep (o : Outcome) : Prop :=
  if o.committed then o.call.added = o.call.changeStock ∧ o.stored = o.call.changeStock
  else o.call.added = 0 ∧ o.stored = 0 ∧ o.call.created = false

/-! ## Row locks -/

/-- The locked row of a call and its committed value. -/
def row (phase : Adjustment.Phase) : Option (VoucherId × ℤ) :=
  phase.locked.map fun call => (call.voucherId, call.rowStock - call.changeStock)

/-- Who holds a row lock holds it alone, and the row is as it was found. -/
structure Locks (calls : ℕ → Adjustment.Phase) (rowLocks : Finset VoucherId)
    (stock : VoucherId → Option ℤ) : Prop where
  held : ∀ i v n, row (calls i) = some (v, n) → v ∈ rowLocks ∧ stock v = some n
  alone : ∀ i j v m n, row (calls i) = some (v, m) → row (calls j) = some (v, n) → i = j

namespace Locks

variable {calls : ℕ → Adjustment.Phase} {rowLocks : Finset VoucherId}
  {stock stock' : VoucherId → Option ℤ} {i : ℕ} {x : Adjustment.Phase} {n : ℤ}

/-- A step within the transaction, or after it. -/
theorem keep (h : Locks calls rowLocks stock) (hx : row x = row (calls i)) :
    Locks (Function.update calls i x) rowLocks stock := by
  have hrow : ∀ j, row (Function.update calls i x j) = row (calls j) := by
    intro j
    by_cases hj : j = i
    · rw [hj, Function.update_self, hx]
    · rw [Function.update_of_ne hj]
  refine ⟨fun j w n => ?_, fun j k w m n => ?_⟩
  · rw [hrow]
    exact h.held j w n
  · rw [hrow, hrow]
    exact h.alone j k w m n

/-- The statement takes the lock. -/
theorem take (h : Locks calls rowLocks stock) (hv : v ∉ rowLocks) (hx : row x = some (v, n))
    (hstock : stock v = some n) :
    Locks (Function.update calls i x) (insert v rowLocks) stock := by
  have hfresh : ∀ j m, row (calls j) ≠ some (v, m) := fun j m hj => hv (h.held j v m hj).1
  refine ⟨fun j w m hj => ?_, fun j k w m m' hj hk => ?_⟩
  · by_cases hji : j = i
    · subst hji
      rw [Function.update_self, hx] at hj
      cases hj
      exact ⟨Finset.mem_insert_self _ _, hstock⟩
    · rw [Function.update_of_ne hji] at hj
      exact ⟨Finset.mem_insert_of_mem (h.held j w m hj).1, (h.held j w m hj).2⟩
  · by_cases hji : j = i <;> by_cases hki : k = i
    · exact hji.trans hki.symm
    · subst hji
      rw [Function.update_self, hx] at hj
      rw [Function.update_of_ne hki] at hk
      cases hj
      exact absurd hk (hfresh k m')
    · subst hki
      rw [Function.update_self, hx] at hk
      rw [Function.update_of_ne hji] at hj
      cases hk
      exact absurd hj (hfresh j m)
    · rw [Function.update_of_ne hji] at hj
      rw [Function.update_of_ne hki] at hk
      exact h.alone j k w m m' hj hk

/-- The transaction ends; only its own row may have changed. -/
theorem release (h : Locks calls rowLocks stock) (hi : row (calls i) = some (v, n))
    (hx : row x = none) (hstock : ∀ w, w ≠ v → stock' w = stock w) :
    Locks (Function.update calls i x) (rowLocks.erase v) stock' := by
  have hothers : ∀ j w m, row (Function.update calls i x j) = some (w, m) →
      row (calls j) = some (w, m) ∧ w ≠ v := by
    intro j w m hj
    by_cases hji : j = i
    · rw [hji, Function.update_self, hx] at hj
      exact absurd hj (by simp)
    · rw [Function.update_of_ne hji] at hj
      refine ⟨hj, ?_⟩
      rintro rfl
      exact hji (h.alone j i w m n hj hi)
  refine ⟨fun j w m hj => ?_, fun j k w m m' hj hk => ?_⟩
  · obtain ⟨hrow, hw⟩ := hothers j w m hj
    refine ⟨Finset.mem_erase.mpr ⟨hw, (h.held j w m hrow).1⟩, ?_⟩
    rw [hstock w hw]
    exact (h.held j w m hrow).2
  · exact h.alone j k w m m' (hothers j w m hj).1 (hothers k w m' hk).1

/-- Whoever else writes leaves locked rows alone. -/
theorem frame (h : Locks calls rowLocks stock) (hstock : ∀ w ∈ rowLocks, stock' w = stock w) :
    Locks calls rowLocks stock' := by
  refine ⟨fun j w m hj => ?_, h.alone⟩
  obtain ⟨hw, hm⟩ := h.held j w m hj
  exact ⟨hw, (hstock w hw).trans hm⟩

end Locks

/-! ## The ledger -/

/-- The ledger of `v` is out of balance by what is in flight on it. -/
def Accounted (v : VoucherId) (p : Pipeline.State) (calls : ℕ → Adjustment.Phase) : Prop :=
  ∃ l, HasLedger v p l ∧ InFlight (carried v) calls l.excess

/-- A step of the pipeline moves the ledger, not its excess. -/
theorem Accounted.pipeline {p p' : Pipeline.State} {calls : ℕ → Adjustment.Phase}
    {action : Pipeline.Action} (hp : Coherent rejects p) (h : Accounted v p calls)
    (hstep : Pipeline.step rejects p action = some p') : Accounted v p' calls := by
  obtain ⟨l, hl, hflight⟩ := h
  obtain ⟨l', hl', hmove⟩ := ledger_step hp hl hstep
  exact ⟨l', hl', by rwa [Ledger.excess_move hmove]⟩

/-- `INCRBY` puts its amount in flight. -/
theorem Accounted.increment {p : Pipeline.State} {calls : ℕ → Adjustment.Phase} {i : ℕ}
    {x : Adjustment.Phase} {w : VoucherId} {delta : ℤ} (h : Accounted v p calls)
    (hx : carried v x = carried v (calls i) + if w = v then delta else 0) :
    Accounted v { p with redis := (p.redis.increment w delta).2 } (Function.update calls i x) := by
  obtain ⟨l, hl, hflight⟩ := h
  refine ⟨⟨l.free + if w = v then delta else 0, l.held, l.stock⟩, ⟨?_, hl.held, hl.stock⟩, ?_⟩
  · by_cases hw : w = v
    · subst hw
      simp [Redis.increment, hl.free]
    · simp [Redis.increment, hw, Ne.symm hw, hl.free]
  · have hmoved := hflight.update i x
    rw [hx] at hmoved
    convert hmoved using 1
    simp only [Ledger.excess]
    omega

/-- A commit lands what it adds to the row. -/
theorem Accounted.write {p : Pipeline.State} {calls : ℕ → Adjustment.Phase} {i : ℕ}
    {x : Adjustment.Phase} {call : Adjustment} (h : Accounted v p calls)
    (hx : carried v x = carried v (calls i) -
      if call.voucherId = v then call.stored p.db else 0) :
    Accounted v { p with db := call.write p.db } (Function.update calls i x) := by
  obtain ⟨l, hl, hflight⟩ := h
  refine ⟨⟨l.free, l.held, l.stock + if call.voucherId = v then call.stored p.db else 0⟩,
    ⟨hl.free, hl.held, ?_⟩, ?_⟩
  · by_cases hw : call.voucherId = v
    · subst hw
      simp [Adjustment.write, Adjustment.stored, hl.stock]
    · simp [Adjustment.write, hw, Ne.symm hw, hl.stock]
  · have hmoved := hflight.update i x
    rw [hx] at hmoved
    convert hmoved using 1
    simp only [Ledger.excess]
    omega

/-- A step of a call that touches neither stock. -/
theorem Accounted.idle {p : Pipeline.State} {calls : ℕ → Adjustment.Phase} {i : ℕ}
    {x : Adjustment.Phase} (h : Accounted v p calls) (hx : carried v x = carried v (calls i)) :
    Accounted v p (Function.update calls i x) := by
  obtain ⟨l, hl, hflight⟩ := h
  exact ⟨l, hl, hflight.update_same hx⟩

theorem coherent_increment {p : Pipeline.State} (h : Coherent rejects p) (w : VoucherId)
    (delta : ℤ) : Coherent rejects { p with redis := (p.redis.increment w delta).2 } :=
  h.of_redis rfl rfl rfl

theorem coherent_write {p : Pipeline.State} (h : Coherent rejects p) (call : Adjustment) :
    Coherent rejects { p with db := call.write p.db } :=
  h.of_db ⟨fun e he => ⟨e, he, rfl, rfl⟩, fun o ho => ⟨o, ho, rfl, rfl, rfl⟩⟩ h.outbox h.completed
    h.orders

/-! ## The invariant -/

/-- **The invariant**: the calls that hold the row account for what table and Redis differ by. -/
structure Inv (rejects : Reservation → Bool) (v : VoucherId) (s : State) : Prop where
  coherent : Coherent rejects s.pipeline
  phases : ∀ i, PhaseOk (s.calls i)
  locks : Locks s.calls s.rowLocks s.pipeline.db.stock
  ledger : Accounted v s.pipeline s.calls
  finished : ∀ o ∈ s.finished, o.InStep

theorem phases_update {calls : ℕ → Adjustment.Phase} (h : ∀ i, PhaseOk (calls i)) (i : ℕ)
    {x : Adjustment.Phase} (hx : PhaseOk x) (j : ℕ) : PhaseOk (Function.update calls i x j) :=
  (Function.forall_update_iff calls fun _ phase => PhaseOk phase).mpr ⟨hx, fun k _ => h k⟩ j

/-- The statement. -/
theorem inv_adjust {i : ℕ} {w : VoucherId} {changeStock : ℤ} (h : Inv rejects v s)
    (hstep : step rejects s (.adjust i w changeStock) = some t) : Inv rejects v t := by
  simp only [step] at hstep
  split at hstep
  · rename_i hi
    split at hstep
    · cases hstep
      exact h
    split at hstep
    · exact absurd hstep (by simp)
    rename_i hfree
    split at hstep
    · cases hstep
      exact h
    rename_i call hcall
    cases hstep
    obtain ⟨n, hn, -, rfl⟩ := start_eq_some hcall
    refine ⟨h.coherent, phases_update h.phases i ⟨rfl, rfl⟩, ?_, ?_, h.finished⟩
    · refine h.locks.take hfree ?_ hn
      simp [row, Adjustment.Phase.locked]
    · refine h.ledger.idle ?_
      rw [hi]
      simp [carried]
  · exact absurd hstep (by simp)

/-- The first `INCRBY`: it finds a key, and its reply is not lost. -/
theorem inv_increment {i : ℕ} {reply : Reply} (h : Inv rejects v s)
    (hsafe : Safe s (.increment i reply))
    (hstep : step rejects s (.increment i reply) = some t) : Inv rejects v t := by
  simp only [step] at hstep
  split at hstep
  · rename_i call hi
    cases hstep
    obtain ⟨hreply, hkey⟩ := hsafe
    obtain ⟨hadded, hcreated⟩ : PhaseOk (.adjusted call) := hi ▸ h.phases i
    have hexists : (s.pipeline.redis.stock call.voucherId).isNone = false := by
      rw [hi] at hkey
      simpa [findsKey] using hkey
    have hok : (call.incremented s.pipeline.redis).added = call.changeStock ∧
        (call.incremented s.pipeline.redis).created = false := by
      simp [Adjustment.incremented, hadded, hexists]
    cases reply with
    | returns =>
      -- a negative result and any other leave the call with the same amount in flight
      have hnext : PhaseOk (call.increment s.pipeline.redis .returns).2 ∧
          row (call.increment s.pipeline.redis .returns).2 = row (s.calls i) ∧
          carried v (call.increment s.pipeline.redis .returns).2 =
            carried v (s.calls i) + if call.voucherId = v then call.changeStock else 0 := by
        rw [hi]
        unfold Adjustment.increment
        dsimp only
        split <;> exact ⟨hok, rfl, by simp [carried, Adjustment.incremented, hadded]⟩
      exact ⟨coherent_increment h.coherent _ _, phases_update h.phases i hnext.1,
        h.locks.keep hnext.2.1, h.ledger.increment hnext.2.2, h.finished⟩
    | throws applied =>
      cases applied with
      | true => exact absurd rfl hreply
      | false =>
        refine ⟨h.coherent, phases_update h.phases i ⟨hadded, hcreated⟩, ?_, ?_, h.finished⟩
        · refine h.locks.keep ?_
          rw [hi]
          rfl
        · refine h.ledger.idle ?_
          rw [hi]
          rfl
  · exact absurd hstep (by simp)

/-- A compensation that is carried out. -/
theorem compensate_eq {call : Adjustment} {redis : Redis} {reply : Reply}
    (hreply : reply ≠ .throws false) : call.compensate redis reply =
      ((redis.increment call.voucherId (-call.changeStock)).2,
        { call with added := call.added - call.changeStock }) := by
  cases reply with
  | returns => rfl
  | throws applied =>
    cases applied with
    | true => rfl
    | false => exact absurd rfl hreply

/-- The `INCRBY` that takes a negative result back. -/
theorem inv_takeBack {i : ℕ} {reply : Reply} (h : Inv rejects v s)
    (hsafe : Safe s (.takeBack i reply))
    (hstep : step rejects s (.takeBack i reply) = some t) : Inv rejects v t := by
  simp only [step] at hstep
  split at hstep
  · rename_i call hi
    cases hstep
    obtain ⟨hadded, hcreated⟩ : PhaseOk (.negative call) := hi ▸ h.phases i
    rw [compensate_eq hsafe]
    refine ⟨coherent_increment h.coherent _ _,
      phases_update h.phases i ⟨by simp [hadded], hcreated⟩, ?_, ?_, h.finished⟩
    · refine h.locks.keep ?_
      rw [hi]
      rfl
    · refine h.ledger.increment ?_
      rw [hi]
      by_cases hv : call.voucherId = v
      · simp [carried, hv, hadded]
      · simp [carried, hv]
  · exact absurd hstep (by simp)

/-- The rollback of a call that has thrown. -/
theorem inv_rollback {i : ℕ} (h : Inv rejects v s)
    (hstep : step rejects s (.rollback i) = some t) : Inv rejects v t := by
  simp only [step] at hstep
  split at hstep
  · rename_i call hi
    cases hstep
    obtain ⟨hadded, hcreated⟩ : PhaseOk (.thrown call) := hi ▸ h.phases i
    refine ⟨h.coherent, phases_update h.phases i trivial, ?_, ?_, ?_⟩
    · have hrow : row (s.calls i) =
          some (call.voucherId, call.rowStock - call.changeStock) := by
        rw [hi]
        rfl
      exact h.locks.release hrow rfl fun _ _ => rfl
    · refine h.ledger.idle ?_
      rw [hi]
      simp [carried, hadded]
    · intro o ho
      rcases List.mem_cons.mp ho with rfl | ho
      · exact ⟨hadded, rfl, hcreated⟩
      · exact h.finished o ho
  · exact absurd hstep (by simp)

/-- The commit: reported when it is carried out. -/
theorem inv_commit {i : ℕ} {reply : Reply} (h : Inv rejects v s)
    (hsafe : Safe s (.commit i reply))
    (hstep : step rejects s (.commit i reply) = some t) : Inv rejects v t := by
  simp only [step] at hstep
  split at hstep
  · rename_i call hi
    obtain ⟨hadded, hcreated⟩ : PhaseOk (.registered call) := hi ▸ h.phases i
    have hrow : row (s.calls i) =
        some (call.voucherId, call.rowStock - call.changeStock) := by
      rw [hi]
      rfl
    cases reply with
    | returns =>
      cases hstep
      have hstored : call.stored s.pipeline.db = call.changeStock := by
        rw [Adjustment.stored, (h.locks.held i _ _ hrow).2, Option.getD_some]
        omega
      refine ⟨coherent_write h.coherent call, phases_update h.phases i trivial, ?_, ?_, ?_⟩
      · refine h.locks.release hrow rfl fun w hw => ?_
        exact Function.update_of_ne hw _ _
      · refine h.ledger.write ?_
        rw [hi, hstored]
        by_cases hv : call.voucherId = v
        · simp [carried, hv, hadded]
        · simp [carried, hv]
      · intro o ho
        rcases List.mem_cons.mp ho with rfl | ho
        · exact ⟨hadded, hstored⟩
        · exact h.finished o ho
    | throws applied =>
      cases applied with
      | true => exact absurd rfl hsafe
      | false =>
        cases hstep
        refine ⟨h.coherent, phases_update h.phases i ⟨hadded, hcreated, rfl, rfl⟩, ?_, ?_,
          h.finished⟩
        · exact h.locks.release hrow rfl fun _ _ => rfl
        · refine h.ledger.idle ?_
          rw [hi]
          simp [carried]
  · exact absurd hstep (by simp)

/-- The callback after the rollback. -/
theorem inv_afterCompletion {i : ℕ} {reply : Reply} (h : Inv rejects v s)
    (hsafe : Safe s (.afterCompletion i reply))
    (hstep : step rejects s (.afterCompletion i reply) = some t) : Inv rejects v t := by
  simp only [step] at hstep
  split at hstep
  · rename_i call committed stored hi
    cases hstep
    obtain ⟨hadded, hcreated, rfl, rfl⟩ : PhaseOk (.completing call committed stored) :=
      hi ▸ h.phases i
    rw [compensate_eq hsafe]
    refine ⟨coherent_increment h.coherent _ _, phases_update h.phases i trivial, ?_, ?_, ?_⟩
    · refine h.locks.keep ?_
      rw [hi]
      rfl
    · refine h.ledger.increment ?_
      rw [hi]
      by_cases hv : call.voucherId = v
      · simp [carried, hv, hadded]
      · simp [carried, hv]
    · intro o ho
      rcases List.mem_cons.mp ho with rfl | ho
      · exact ⟨by simp [hadded], rfl, hcreated⟩
      · exact h.finished o ho
  · exact absurd hstep (by simp)

/-- **A safe step keeps the account.** -/
theorem inv_step : Preserves (step rejects) Safe (Inv rejects v) := by
  intro s a t hsafe h hstep
  cases a with
  | pipeline action =>
    obtain ⟨p, hp, hrest⟩ := Option.bind_eq_some_iff.mp hstep
    split at hrest
    · rename_i hrows
      cases hrest
      exact ⟨coherent_step h.coherent hp, h.phases, h.locks.frame hrows,
        h.ledger.pipeline h.coherent hp, h.finished⟩
    · exact absurd hrest (by simp)
  | adjust i w changeStock => exact inv_adjust h hstep
  | increment i reply => exact inv_increment h hsafe hstep
  | takeBack i reply => exact inv_takeBack h hsafe hstep
  | commit i reply => exact inv_commit h hsafe hstep
  | rollback i => exact inv_rollback h hstep
  | afterCompletion i reply => exact inv_afterCompletion h hsafe hstep

/-! ## Runs -/

/-- The stocks of `v` are in step. -/
structure InStep (v : VoucherId) (s : State) : Prop where
  finished : ∀ o ∈ s.finished, o.InStep
  balance : (∀ i, (s.calls i).voucherId ≠ some v) → ∃ r S : ℤ,
    s.pipeline.redis.stock v = some r ∧ s.pipeline.db.stock v = some S ∧
      r + (outstandingIds v s.pipeline).card = S

theorem Inv.inStep (h : Inv rejects v s) : InStep v s := by
  refine ⟨h.finished, fun hrest => ?_⟩
  obtain ⟨l, hl, hflight⟩ := h.ledger
  have hzero : ∀ i, carried v (s.calls i) = 0 := by
    intro i
    have hi := hrest i
    cases hphase : s.calls i with
    | idle => rfl
    | _ =>
      rw [hphase] at hi
      exact if_neg fun hv => hi (congrArg some hv)
  have hexcess := hflight.eq_zero hzero
  refine ⟨l.free, l.stock, hl.free, hl.stock, ?_⟩
  rw [← hl.held]
  unfold Ledger.excess at hexcess
  omega

/-- **Both stocks stay in step.** From a balanced voucher and nothing in flight, in every run whose
steps are all safe, in every state reached, a call that is over has added its change to both
stocks or nothing to either, and the voucher is balanced whenever no call on it is in flight. -/
theorem in_step (rejects : Reservation → Bool) (v : VoucherId) {r S : ℤ} {s t : State}
    {as : List Action} (hstart : Start rejects s) (hredis : s.pipeline.redis.stock v = some r)
    (hmysql : s.pipeline.db.stock v = some S)
    (hbalance : r + (outstandingIds v s.pipeline).card = S)
    (hsafe : Along (step rejects) Safe s as) (hrun : run (step rejects) s as = some t) :
    InStep v t := by
  have hfirst : Inv rejects v s := by
    refine ⟨hstart.coherent, fun i => ?_, ⟨fun i w n hi => ?_, fun i j w m n hi => ?_⟩,
      ⟨⟨r, outstandingIds v s.pipeline, S⟩, ⟨hredis, rfl, hmysql⟩, ?_⟩, fun o ho => ?_⟩
    · rw [hstart.idle i]
      trivial
    · rw [hstart.idle i] at hi
      exact absurd hi (by simp [row, Adjustment.Phase.locked])
    · rw [hstart.idle i] at hi
      exact absurd hi (by simp [row, Adjustment.Phase.locked])
    · have hexcess : Ledger.excess ⟨r, outstandingIds v s.pipeline, S⟩ = 0 := by
        simp only [Ledger.excess]
        omega
      rw [hexcess]
      refine InFlight.of_forall fun i => ?_
      rw [hstart.idle i]
      rfl
    · rw [hstart.finished] at ho
      exact absurd ho List.not_mem_nil
  exact (run_invariant inv_step hsafe hfirst hrun).inStep

/-- Voucher 7 is on sale, and nothing is in flight. -/
def calm (p : Pipeline.State) : State := ⟨p, fun _ => .idle, ∅, []⟩

theorem start_calm (n : ℤ) : Start (fun _ => false) (calm (onSale n)) :=
  ⟨(start_onSale n).coherent, fun _ => rfl, rfl, rfl⟩

/-- One call adds 5 and commits, another takes 3 away and is rolled back, and users buy in
between. -/
def adjustedTwice : List Action :=
  [.adjust 0 7 5, .increment 0 .returns, .pipeline (buy 1 5), .commit 0 .returns,
    .adjust 1 7 (-3), .pipeline (buy 2 6), .increment 1 .returns, .commit 1 (.throws false),
    .pipeline (buy 3 8), .afterCompletion 1 .returns]

theorem in_step_twice :
    ∃ t, run (step fun _ => false) (calm (onSale 10)) adjustedTwice = some t ∧ InStep 7 t := by
  obtain ⟨t, ht⟩ := Option.isSome_iff_exists.mp
    (show (run (step fun _ => false) (calm (onSale 10)) adjustedTwice).isSome = true by
      decide +kernel)
  have hbalance : (10 : ℤ) + (outstandingIds 7 (calm (onSale 10)).pipeline).card = 10 := by
    rw [show outstandingIds 7 (calm (onSale 10)).pipeline = ∅ from (start_onSale 10).outstandingIds]
    simp
  exact ⟨t, ht, in_step (fun _ => false) 7 (start_calm 10) rfl rfl hbalance (by decide +kernel) ht⟩

/-- What a run leaves: the two stocks, the outstanding orders, and what the calls have come to. -/
def summary (s : State) : Option ℤ × Option ℤ × ℕ × List Outcome :=
  (s.pipeline.redis.stock 7, s.pipeline.db.stock 7, (outstandingIds 7 s.pipeline).card, s.finished)

/-- **The law fails**: `INCRBY` adds 5 and its reply is lost. Nothing takes the 5 back, so Redis
sells 15 of 10. -/
theorem reply_lost :
    ∃ t, run (step fun _ => false) (calm (onSale 10))
        [.adjust 0 7 5, .increment 0 (.throws true), .rollback 0] = some t ∧
      summary t = (some 15, some 10, 0, [⟨⟨7, 5, 15, 5, false⟩, false, 0⟩]) := by
  exact Option.map_eq_some_iff.mp (show (run (step fun _ => false) (calm (onSale 10))
    [.adjust 0 7 5, .increment 0 (.throws true), .rollback 0]).map summary = some _ by
      decide +kernel)

/-- The stock key of voucher 7 is missing. -/
def keyMissing : Pipeline.State :=
  { onSale 10 with redis := { (onSale 10).redis with stock := fun _ => none } }

/-- **And again**: `INCRBY` makes the missing key, its result is negative and taken back, and the
key stays. -/
theorem key_left_behind :
    ∃ t, run (step fun _ => false) (calm keyMissing)
        [.adjust 0 7 (-3), .increment 0 .returns, .takeBack 0 .returns, .rollback 0] = some t ∧
      summary t = (some 0, some 10, 0, [⟨⟨7, -3, 7, 0, true⟩, false, 0⟩]) := by
  exact Option.map_eq_some_iff.mp (show (run (step fun _ => false) (calm keyMissing)
    [.adjust 0 7 (-3), .increment 0 .returns, .takeBack 0 .returns, .rollback 0]).map summary =
      some _ by decide +kernel)

end Hmdp.Stock
