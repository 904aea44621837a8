import Hmdp.Consumer.Persist
import Hmdp.Model.Handoff
import Hmdp.Model.Recovery

/-!
# What the statements do to an outbox row

Nine `UPDATE` statements rewrite rows of `tb_seckill_order_outbox`, from the relay, the consumer,
the dead-letter listener and the manual review. `RowChange` lists what one of them can do to one
row, with the guard its `WHERE` clause has checked and, for a requeue, why it is issued;
`Changes` says it of a whole table. Later results about the life of a row are case analyses on
`RowChange` and never look at a statement.

* `RowChange.kept_of_completed`: no guard lets a completed row through.
* `changes_createOrders`: a consumer transaction completes rows and does nothing else to them.
-/

namespace Hmdp.Outbox

open Hmdp.Lib Hmdp.Model

/-- What one statement can do to one row; `requeue` says which rows may be requeued. -/
inductive RowChange (requeue : OutboxRow → Prop) (e : OutboxRow) : OutboxRow → Prop
  | kept : RowChange requeue e e
  | claimed (owner : Text) (leaseUntil now : Time) (guard : e.dispatchable now = true) :
      RowChange requeue e { e with
        relayOwner := some owner, relayLeaseUntil := some leaseUntil, updatedTime := now }
  | sent (owner : Text) (nextCheckTime now : Time) (owned : e.relayOwner = some owner)
      (guard : e.backlog = true) :
      RowChange requeue e { e with
        status := .sent, sentTime := some now, nextRetryTime := nextCheckTime, updatedTime := now,
        lastError := none, relayOwner := none, relayLeaseUntil := none }
  | retried (owner : Text) (nextRetryTime : Time) (lastError : Text) (now : Time)
      (owned : e.relayOwner = some owner) (guard : e.backlog = true) :
      RowChange requeue e { e with
        retryCount := e.retryCount + 1, nextRetryTime := nextRetryTime,
        lastError := some lastError, updatedTime := now, relayOwner := none,
        relayLeaseUntil := none }
  | completed (now : Time) (guard : e.backlog = true) :
      RowChange requeue e ((OutboxUpdate.completed now).apply e)
  | reviewed (reason : Text) (now : Time) (guard : e.status ≠ .completed) :
      RowChange requeue e { e with
        status := .manualReview, updatedTime := now, lastError := some reason,
        relayOwner := none, relayLeaseUntil := none }
  | requeued (nextRetryTime : Time) (reason : Text) (now : Time) (guard : e.status ≠ .completed)
      (allowed : requeue e) :
      RowChange requeue e { e with
        status := .pending, retryCount := e.retryCount + 1, nextRetryTime := nextRetryTime,
        updatedTime := now, lastError := some reason, relayOwner := none,
        relayLeaseUntil := none }

variable {requeue : OutboxRow → Prop} {e e' : OutboxRow} {db db' : Db}

theorem backlog_iff : e.backlog = true ↔ e.status = .pending ∨ e.status = .sent := by
  unfold OutboxRow.backlog
  rw [decide_eq_true_eq]

theorem backlog_of_dispatchable {now : Time} (h : e.dispatchable now = true) :
    e.backlog = true := by
  unfold OutboxRow.dispatchable at h
  simp only [Bool.and_eq_true] at h
  exact h.1.1

/-- A claimable row is under no lease that still runs. -/
theorem lease_of_dispatchable {now t : Time} (h : e.dispatchable now = true)
    (ht : e.relayLeaseUntil = some t) : t < now := by
  unfold OutboxRow.dispatchable at h
  rw [ht] at h
  simp only [Bool.and_eq_true, decide_eq_true_eq] at h
  exact h.2

/-- A row that is claimable stays so while nobody rewrites it. -/
theorem dispatchable_mono {now later : Time} (hle : now ≤ later) (h : e.dispatchable now = true) :
    e.dispatchable later = true := by
  unfold OutboxRow.dispatchable at h ⊢
  cases ht : e.relayLeaseUntil with
  | none =>
    simp only [ht, Bool.and_eq_true, decide_eq_true_eq] at h ⊢
    exact ⟨⟨h.1.1, Int.le_trans h.1.2 hle⟩, trivial⟩
  | some t =>
    simp only [ht, Bool.and_eq_true, decide_eq_true_eq] at h ⊢
    exact ⟨⟨h.1.1, Int.le_trans h.1.2 hle⟩, Int.lt_of_lt_of_le h.2 hle⟩

namespace RowChange

/-- A row keeps what identifies its event. -/
theorem identity (h : RowChange requeue e e') :
    e'.id = e.id ∧ e'.eventId = e.eventId ∧ e'.reservation = e.reservation := by
  cases h <;> exact ⟨rfl, rfl, rfl⟩

/-- **A completed row is final**: no guard lets it through. -/
theorem kept_of_completed (h : RowChange requeue e e') (hc : e.status = .completed) : e' = e := by
  cases h with
  | kept => rfl
  | claimed owner leaseUntil now guard =>
    exact absurd (backlog_iff.mp (backlog_of_dispatchable guard)) (by simp [hc])
  | sent owner nextCheckTime now owned guard => exact absurd (backlog_iff.mp guard) (by simp [hc])
  | retried owner nextRetryTime lastError now owned guard =>
    exact absurd (backlog_iff.mp guard) (by simp [hc])
  | completed now guard => exact absurd (backlog_iff.mp guard) (by simp [hc])
  | reviewed reason now guard => exact absurd hc guard
  | requeued nextRetryTime reason now guard allowed => exact absurd hc guard

/-- Only a requeue takes a row out of manual review. -/
theorem manualReview (h : RowChange requeue e e') (hm : e.status = .manualReview) :
    e'.status = .manualReview ∨ requeue e := by
  cases h with
  | kept => exact Or.inl hm
  | claimed owner leaseUntil now guard => exact Or.inl hm
  | sent owner nextCheckTime now owned guard => exact absurd (backlog_iff.mp guard) (by simp [hm])
  | retried owner nextRetryTime lastError now owned guard => exact Or.inl hm
  | completed now guard => exact absurd (backlog_iff.mp guard) (by simp [hm])
  | reviewed reason now guard => exact Or.inl rfl
  | requeued nextRetryTime reason now guard allowed => exact Or.inr allowed

end RowChange

/-! ## Tables -/

/-- Every row is still there, changed by at most one statement. -/
def Changes (requeue : OutboxRow → Prop) (db db' : Db) : Prop :=
  ∀ e ∈ db.outbox.rows, ∃ e' ∈ db'.outbox.rows, RowChange requeue e e'

theorem Changes.mono {requeue' : OutboxRow → Prop} (h : Changes requeue db db')
    (himp : ∀ e, requeue e → requeue' e) : Changes requeue' db db' := by
  intro e he
  obtain ⟨e', he', hchange⟩ := h e he
  refine ⟨e', he', ?_⟩
  cases hchange with
  | kept => exact .kept
  | claimed owner leaseUntil now guard => exact .claimed owner leaseUntil now guard
  | sent owner nextCheckTime now owned guard => exact .sent owner nextCheckTime now owned guard
  | retried owner nextRetryTime lastError now owned guard =>
    exact .retried owner nextRetryTime lastError now owned guard
  | completed now guard => exact .completed now guard
  | reviewed reason now guard => exact .reviewed reason now guard
  | requeued nextRetryTime reason now guard allowed =>
    exact .requeued nextRetryTime reason now guard (himp e allowed)

/-- Two outbox rows with one id are the same row. -/
theorem row_unique (db : Db) (he : e ∈ db.outbox.rows) (he' : e' ∈ db.outbox.rows)
    (h : e.id = e'.id) : e = e' :=
  db.outbox.eq_of_clash he he' (outboxKeys_clash.mpr (Or.inl h))

theorem Changes.of_subset (h : ∀ e ∈ db.outbox.rows, e ∈ db'.outbox.rows) :
    Changes requeue db db' :=
  fun e he => ⟨e, h e he, .kept⟩

theorem changes_updateOutbox {sel : OutboxRow → Bool} {f : OutboxUpdate}
    (h : ∀ e, sel e = true → RowChange requeue e (f.apply e)) (db : Db) :
    Changes requeue db (updateOutbox sel f db).2 := by
  intro e he
  refine ⟨_, mem_updateOutbox.mpr ⟨e, he, rfl⟩, ?_⟩
  split
  · rename_i hsel
    exact h e hsel
  · exact .kept

/-! ## The statements -/

theorem changes_claimRelayBatch (ids : List ℕ) (owner : Text) (leaseUntil now : Time) (db : Db) :
    Changes requeue db (claimRelayBatch ids owner leaseUntil now db).2 := by
  refine changes_updateOutbox (fun e h => ?_) db
  rw [Bool.and_eq_true] at h
  exact .claimed owner leaseUntil now h.2

theorem changes_markSentBatch (ids : List ℕ) (owner : Text) (nextCheckTime now : Time) (db : Db) :
    Changes requeue db (markSentBatch ids owner nextCheckTime now db).2 := by
  refine changes_updateOutbox (fun e h => ?_) db
  simp only [Bool.and_eq_true, decide_eq_true_eq] at h
  exact .sent owner nextCheckTime now h.1.1 h.2

theorem changes_scheduleRetryBatch (ids : List ℕ) (owner : Text) (nextRetryTime : Time)
    (lastError : Text) (now : Time) (db : Db) :
    Changes requeue db (scheduleRetryBatch ids owner nextRetryTime lastError now db).2 := by
  refine changes_updateOutbox (fun e h => ?_) db
  simp only [Bool.and_eq_true, decide_eq_true_eq] at h
  exact .retried owner nextRetryTime lastError now h.1.1 h.2

/-- The three completing statements differ in the rows they name only. -/
theorem changes_completed (sel : OutboxRow → Bool) (now : Time) (db : Db) :
    Changes requeue db (updateOutbox (fun e => sel e && e.backlog) (.completed now) db).2 := by
  refine changes_updateOutbox (fun e h => ?_) db
  rw [Bool.and_eq_true] at h
  exact .completed now h.2

theorem changes_markManualReview (orderId : OrderId) (reason : Text) (now : Time) (db : Db) :
    Changes requeue db (markManualReview orderId reason now db).2 := by
  refine changes_updateOutbox (fun e h => ?_) db
  simp only [Bool.and_eq_true, decide_eq_true_eq] at h
  exact .reviewed reason now h.2

theorem changes_requeueAccepted (orderId : OrderId) (nextRetryTime : Time) (reason : Text)
    (now : Time) (db : Db) :
    Changes (fun e => e.orderId = orderId) db
      (requeueAccepted orderId nextRetryTime reason now db).2 := by
  refine changes_updateOutbox (fun e h => ?_) db
  simp only [Bool.and_eq_true, decide_eq_true_eq] at h
  exact .requeued nextRetryTime reason now h.2 h.1

theorem changes_retryUpdate (backoff : RetryBackoff) (event : OutboxRow) (orderExists : Bool)
    (reason : Text) (localNow now : Time) (db : Db) :
    Changes (fun e => orderExists = false ∧ e.orderId = event.orderId) db
      (retryUpdate backoff event orderExists reason localNow now db).2 := by
  cases orderExists with
  | true => exact changes_completed _ now db
  | false =>
    exact (changes_requeueAccepted event.orderId _ reason now db).mono fun e he => ⟨rfl, he⟩

theorem changes_insertCommitted {rejects : Reservation → Bool}
    {events accepted : List SeckillOrderOutboxEvent}
    (h : insertCommitted rejects events db = .ok (accepted, db')) : Changes requeue db db' := by
  rw [(insertCommitted_ok h).2.1]
  exact .of_subset fun e he => mem_insertIgnoreBatch.mpr (Or.inl he)

/-- **A consumer transaction** completes rows and does nothing else to the outbox. -/
theorem changes_createOrders {tx : Transaction} {messages : List SeckillOrderMessage}
    {os : List OrderDraft} (h : createOrders tx messages db = .ok (os, db')) :
    Changes requeue db db' := by
  obtain ⟨c, d, -, -, hp, ⟨-, rfl⟩ | rfl⟩ := createOrders_ok h
  · exact .of_subset fun e he => by rwa [hp.outbox]
  · obtain ⟨sel, heq, -⟩ := completeOutbox_eq tx c d
    rw [heq]
    intro e he
    exact changes_completed sel tx.completeTime d e (by rwa [hp.outbox])

end Hmdp.Outbox
