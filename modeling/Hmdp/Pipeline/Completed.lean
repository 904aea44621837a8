import Hmdp.Outbox.Row
import Hmdp.Pipeline.Handover

/-!
# A completed outbox row is final and truthful

A row is completed only together with its order, or after a lookup that has found it; order rows
are never deleted, so a stale lookup does no harm. And once a row is completed the guard of every
statement leaves it alone, whoever issues it and however long ago its issuer has read the row.

* `step_changes`: a step changes each outbox row by at most one statement.
* **`completed_final`**: both laws, for every run.
-/

namespace Hmdp.Pipeline

open Hmdp.Lib Hmdp.Model Hmdp.Outbox

variable {rejects : Reservation → Bool} {requeue : OutboxRow → Prop} {s t : State}

theorem changes_runTask {task : RelayTask} {more : List RelayTask} {redis redis' : Redis}
    {db db' : Db} (h : runTask rejects task redis db = some (more, redis', db')) :
    Changes requeue db db' := by
  unfold runTask at h
  cases task with
  | quarantine v m reason =>
    cases h
    exact .of_subset fun e he => he
  | persist v events members =>
    simp only at h
    split at h
    · cases h
      exact .of_subset fun e he => he
    · split at h
      · rename_i hok
        cases h
        exact changes_insertCommitted hok
      · cases h
        exact .of_subset fun e he => he
  | complete v events members =>
    obtain ⟨r, -, hr⟩ := Option.map_eq_some_iff.mp h
    cases hr
    exact .of_subset fun e he => he

/-- The action requeues the row: a call of `retry` that has not found its order. -/
def Requeues (s : State) (a : Action) (e : OutboxRow) : Prop :=
  ∃ i backoff reason localNow now event deadLetter,
    a = .retryUpdate i backoff reason localNow now ∧
      s.recoveries i = some (.looked event deadLetter false) ∧ e.orderId = event.orderId

/-- **A step changes each outbox row by at most one statement.** -/
theorem step_changes {a : Action} (hstep : step rejects s a = some t) :
    Changes (Requeues s a) s.db t.db := by
  have hsame : ∀ {requeue}, Changes requeue s.db s.db := .of_subset fun e he => he
  cases a with
  | seckill call =>
    simp only [step] at hstep
    split at hstep <;> cases hstep
    exact hsame
  | configure activity accessToken =>
    cases hstep
    exact hsame
  | fetch i v limit now =>
    simp only [step] at hstep
    split at hstep <;> cases hstep
    exact hsame
  | relayTask i =>
    simp only [step] at hstep
    split at hstep
    · exact absurd hstep (by simp)
    · split at hstep
      · cases hstep
        exact hsame
      · rename_i hrun
        cases hstep
        exact changes_runTask hrun
  | crash i =>
    cases hstep
    exact hsame
  | accept batch now =>
    simp only [step] at hstep
    split at hstep
    · split at hstep
      · cases hstep
        exact hsame
      · rename_i hok
        cases hstep
        exact changes_insertCommitted hok
    · exact absurd hstep (by simp)
  | completeHandoff r =>
    simp only [step] at hstep
    split at hstep <;> cases hstep
    exact hsame
  | claimRelayBatch ids owner leaseUntil now =>
    cases hstep
    exact changes_claimRelayBatch ids owner leaseUntil now s.db
  | markSentBatch ids owner nextCheckTime now =>
    cases hstep
    exact changes_markSentBatch ids owner nextCheckTime now s.db
  | scheduleRetryBatch ids owner nextRetryTime lastError now =>
    cases hstep
    exact changes_scheduleRetryBatch ids owner nextRetryTime lastError now s.db
  | send row withOutboxId =>
    simp only [step] at hstep
    split at hstep <;> cases hstep
    exact hsame
  | createOrders tx messages =>
    simp only [step] at hstep
    split at hstep
    · split at hstep
      · cases hstep
        exact hsame
      · rename_i hok
        cases hstep
        exact changes_createOrders hok
    · exact absurd hstep (by simp)
  | readDeadLetter i message =>
    simp only [step] at hstep
    split at hstep
    · split at hstep <;> cases hstep <;> exact hsame
    · exact absurd hstep (by simp)
  | readManualReview i event =>
    simp only [step] at hstep
    split at hstep <;> cases hstep
    exact hsame
  | retryLookup i =>
    simp only [step] at hstep
    split at hstep <;> cases hstep
    exact hsame
  | retryUpdate i backoff reason localNow now =>
    simp only [step] at hstep
    split at hstep
    · rename_i event deadLetter orderExists hi
      cases hstep
      refine (changes_retryUpdate backoff event orderExists reason localNow now s.db).mono ?_
      rintro e ⟨rfl, he⟩
      exact ⟨i, backoff, reason, localNow, now, event, deadLetter, rfl, hi, he⟩
    · exact absurd hstep (by simp)
  | retryThrow i =>
    simp only [step] at hstep
    split at hstep <;> cases hstep
    exact hsame
  | markManualReview i reason now =>
    simp only [step] at hstep
    split at hstep <;> cases hstep
    exact changes_markManualReview _ reason now s.db
  | selectOrder i pick u v =>
    simp only [step] at hstep
    split at hstep <;> cases hstep
    exact hsame
  | cancel i =>
    simp only [step] at hstep
    split at hstep
    · exact absurd hstep (by simp)
    · split at hstep
      · cases hstep
        exact hsame
      · rename_i order _ redis db hc
        cases hstep
        obtain ⟨d, hd, hrest⟩ := Option.bind_eq_some_iff.mp hc
        simp only at hrest
        split at hrest
        · exact absurd hrest (by simp)
        · simp only [Option.some.injEq, Prod.mk.injEq] at hrest
          obtain ⟨-, rfl⟩ := hrest
          obtain ⟨-, -, -, hout, -⟩ := cancelInTransaction_some hd
          exact .of_subset fun e he => by rwa [hout]

/-! ## The two laws -/

/-- A completed row has an order row of the same order, user and voucher. -/
def CompletedTruthful (db : Db) : Prop :=
  ∀ e ∈ db.outbox.rows, e.status = .completed → ∃ o ∈ db.orders.rows,
    o.id = e.orderId ∧ o.userId = e.userId ∧ o.voucherId = e.voucherId

/-- The order row of an order id is that of the outbox row of this order id. -/
theorem Coherent.order_of_row (h : Coherent rejects s) {e : OutboxRow}
    (he : e ∈ s.db.outbox.rows) {o : VoucherOrder} (ho : o ∈ s.db.orders.rows)
    (hid : o.id = e.orderId) : o.userId = e.userId ∧ o.voucherId = e.voucherId := by
  obtain ⟨r, hr, hro, hru, hrv⟩ := h.orders o ho
  have heq : r = e.reservation :=
    h.unique (h.granted_of_inOutbox hr) (h.outbox e he).1 (hro.trans hid)
  subst heq
  exact ⟨hru.symm, hrv.symm⟩

theorem Coherent.completedTruthful (h : Coherent rejects s) : CompletedTruthful s.db := by
  intro e he hc
  obtain ⟨o, ho, hid⟩ := Db.hasOrder_iff.mp (h.completed e he hc)
  exact ⟨o, ho, hid, h.order_of_row he ho hid⟩

/-- A completed row stays as it is through a step. -/
theorem completed_step {a : Action} {e : OutboxRow} (hc : e.status = .completed)
    (he : e ∈ s.db.outbox.rows) (hstep : step rejects s a = some t) : e ∈ t.db.outbox.rows := by
  obtain ⟨e', he', hchange⟩ := step_changes hstep e he
  rwa [← hchange.kept_of_completed hc]

/-- **`COMPLETED` is final and truthful.** In every state a run from a start reaches, a completed
row has the order row of its order, user and voucher; and whatever runs afterwards, the row stays
in the table exactly as it is. -/
theorem completed_final (rejects : Reservation → Bool) {s t : State} {as : List Action}
    (hstart : Start s) (hrun : run (step rejects) s as = some t) :
    CompletedTruthful t.db ∧ ∀ e ∈ t.db.outbox.rows, e.status = .completed →
      ∀ bs u, run (step rejects) t bs = some u → e ∈ u.db.outbox.rows :=
  ⟨(coherent_run hstart.coherent hrun).completedTruthful, fun e he hc _ _ hbs =>
    run_invariant' (I := fun s => e ∈ s.db.outbox.rows)
      (fun _ _ _ hs hstep => completed_step hc hs hstep) he hbs⟩

/-- An order is bought, relayed, sent and persisted. -/
def completedOnce : List Action :=
  buy 1 5 :: relayOne ++
    [.send (rowOf 1 1 5) true, .createOrders atZero [(rowOf 1 1 5).toMessage true]]

theorem completed_final_once :
    ∃ t, run (step fun _ => false) (onSale 2) completedOnce = some t ∧
      t.db.outbox.rows.map (fun e => e.status) = [.completed] ∧ CompletedTruthful t.db ∧
      ∀ e ∈ t.db.outbox.rows, e.status = .completed →
        ∀ bs u, run (step fun _ => false) t bs = some u → e ∈ u.db.outbox.rows := by
  obtain ⟨t, ht, hstatus⟩ := Option.map_eq_some_iff.mp
    (show (run (step fun _ => false) (onSale 2) completedOnce).map
      (fun t => t.db.outbox.rows.map fun e => e.status) = some [.completed] by decide +kernel)
  exact ⟨t, ht, hstatus, completed_final (fun _ => false) (start_onSale 2) ht⟩

end Hmdp.Pipeline
