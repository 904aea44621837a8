import Hmdp.Pipeline.Completed
import Hmdp.Pipeline.Fence

/-!
# Retrying an order that is already persisted

`retry` looks the order up and, when it finds it, closes the outbox row with `markCompleted`,
whose guard is `status IN ('PENDING', 'SENT')`. Its sibling for an order that is not there,
`requeueAccepted`, has the guard `status <> 'COMPLETED'`. So a row in manual review whose order
has been persisted meanwhile, by a duplicate of its message, is beyond the reach of `retry`: the
call throws and the row stays, and it is the manual review itself that calls `retry` for such
rows.

* **`recovery_closes_iff`**: a call that has found the order closes the row iff the row is pending
  or sent when the update runs.
* **`manual_review_stuck`**: a persisted order in manual review stays there for good.
-/

namespace Hmdp.Pipeline

open Hmdp.Lib Hmdp.Model Hmdp.Outbox

variable {rejects : Reservation → Bool} {s t : State}

/-! ## Calls move by their own steps only -/

/-- The recovery call an action belongs to. -/
def Action.recovery : Action → Option ℕ
  | .readDeadLetter i _ => some i
  | .readManualReview i _ => some i
  | .retryLookup i => some i
  | .retryUpdate i _ _ _ _ => some i
  | .retryThrow i => some i
  | .markManualReview i _ _ => some i
  | _ => none

theorem update_recoveries_of_ne {i j : ℕ} (h : some i ≠ some j) (next : Option Recovery) :
    Function.update s.recoveries i next j = s.recoveries j :=
  Function.update_of_ne (fun he => h (congrArg some he.symm)) _ _

theorem step_recoveries {a : Action} {j : ℕ} (hj : a.recovery ≠ some j)
    (hstep : step rejects s a = some t) : t.recoveries j = s.recoveries j := by
  cases a with
  | configure activity accessToken => cases hstep; rfl
  | crash i => cases hstep; rfl
  | claimRelayBatch ids owner leaseUntil now => cases hstep; rfl
  | markSentBatch ids owner nextCheckTime now => cases hstep; rfl
  | scheduleRetryBatch ids owner nextRetryTime lastError now => cases hstep; rfl
  | seckill call =>
    simp only [step] at hstep
    split at hstep <;> cases hstep
    rfl
  | fetch i v limit now =>
    simp only [step] at hstep
    split at hstep <;> cases hstep
    rfl
  | relayTask i =>
    simp only [step] at hstep
    split at hstep
    · exact absurd hstep (by simp)
    · split at hstep <;> cases hstep <;> rfl
  | accept batch now =>
    simp only [step] at hstep
    split at hstep
    · split at hstep <;> cases hstep <;> rfl
    · exact absurd hstep (by simp)
  | completeHandoff r =>
    simp only [step] at hstep
    split at hstep <;> cases hstep
    rfl
  | send row withOutboxId =>
    simp only [step] at hstep
    split at hstep <;> cases hstep
    rfl
  | createOrders tx messages =>
    simp only [step] at hstep
    split at hstep
    · split at hstep <;> cases hstep <;> rfl
    · exact absurd hstep (by simp)
  | readDeadLetter i message =>
    simp only [step] at hstep
    split at hstep
    · split at hstep <;> cases hstep
      · rfl
      · exact update_recoveries_of_ne hj _
    · exact absurd hstep (by simp)
  | readManualReview i event =>
    simp only [step] at hstep
    split at hstep <;> cases hstep
    exact update_recoveries_of_ne hj _
  | retryLookup i =>
    simp only [step] at hstep
    split at hstep <;> cases hstep
    exact update_recoveries_of_ne hj _
  | retryUpdate i backoff reason localNow now =>
    simp only [step] at hstep
    split at hstep <;> cases hstep
    exact update_recoveries_of_ne hj _
  | retryThrow i =>
    simp only [step] at hstep
    split at hstep <;> cases hstep
    exact update_recoveries_of_ne hj _
  | markManualReview i reason now =>
    simp only [step] at hstep
    split at hstep <;> cases hstep
    exact update_recoveries_of_ne hj _
  | selectOrder i pick u v =>
    simp only [step] at hstep
    split at hstep <;> cases hstep
    rfl
  | cancel i =>
    simp only [step] at hstep
    split at hstep
    · exact absurd hstep (by simp)
    · split at hstep <;> cases hstep <;> rfl

theorem run_recoveries {as : List Action} {j : ℕ} (has : ∀ a ∈ as, a.recovery ≠ some j)
    (hrun : run (step rejects) s as = some t) : t.recoveries j = s.recoveries j := by
  refine run_invariant (I := fun u => u.recoveries j = s.recoveries j)
    (P := fun _ a => a.recovery ≠ some j) (fun u a w ha hu hstep => ?_)
    (along_of_forall (fun a ha _ => has a ha) s) rfl hrun
  exact (step_recoveries ha hstep).trans hu

/-- A call that waits for its update has had its answer before the step, or gets it now. -/
theorem looked_step {a : Action} {i : ℕ} {event : OutboxRow} {deadLetter orderExists : Bool}
    (hstep : step rejects s a = some t)
    (ht : t.recoveries i = some (.looked event deadLetter orderExists)) :
    s.recoveries i = some (.looked event deadLetter orderExists) ∨
      orderExists = s.db.hasOrder event.orderId := by
  by_cases ha : a.recovery = some i
  · cases a with
    | readDeadLetter j message =>
      cases ha
      simp only [step] at hstep
      split at hstep
      · split at hstep <;> cases hstep
        · exact Or.inl ht
        · exact absurd ht (by simp)
      · exact absurd hstep (by simp)
    | readManualReview j row =>
      cases ha
      simp only [step] at hstep
      split at hstep <;> cases hstep
      exact absurd ht (by simp)
    | retryLookup j =>
      cases ha
      simp only [step] at hstep
      split at hstep <;> cases hstep
      simp only [Function.update_self, Option.some.injEq, Recovery.looked.injEq] at ht
      obtain ⟨rfl, rfl, rfl⟩ := ht
      exact Or.inr selectById_isSome
    | retryUpdate j backoff reason localNow now =>
      cases ha
      simp only [step] at hstep
      split at hstep
      · rename_i row dead found hj
        cases hstep
        simp only [Function.update_self] at ht
        split at ht
        · exact absurd ht (by simp)
        · cases dead <;> exact absurd ht (by simp [Recovery.thrown])
      · exact absurd hstep (by simp)
    | retryThrow j =>
      cases ha
      simp only [step] at hstep
      split at hstep
      · rename_i recovery hj
        cases hstep
        simp only [Function.update_self] at ht
        cases recovery with
        | read row dead => cases dead <;> exact absurd ht (by simp [Recovery.thrown])
        | looked row dead found => cases dead <;> exact absurd ht (by simp [Recovery.thrown])
        | failed row => exact absurd ht (by simp [Recovery.thrown])
      · exact absurd hstep (by simp)
    | markManualReview j reason now =>
      cases ha
      simp only [step] at hstep
      split at hstep <;> cases hstep
      exact absurd ht (by simp)
    | _ => cases ha
  · rw [step_recoveries ha hstep] at ht
    exact Or.inl ht

/-! ## When a call closes its row -/

/-- `retry` has returned normally, and the row of the order is completed. -/
def Closes (event : OutboxRow) (updated : Bool × Db) : Prop :=
  updated.1 = true ∧ ∃ e ∈ updated.2.outbox.rows, e.orderId = event.orderId ∧ e.status = .completed

theorem retryUpdate_closes_iff {backoff : RetryBackoff} {event : OutboxRow} {reason : Text}
    {localNow now : Time} {db : Db} :
    Closes event (retryUpdate backoff event true reason localNow now db) ↔
      ∃ e ∈ db.outbox.rows, e.orderId = event.orderId ∧
        (e.status = .pending ∨ e.status = .sent) := by
  constructor
  · rintro ⟨hreturned, -⟩
    have hcount : (markCompleted event.orderId now db).1 ≠ 0 := by
      simpa [retryUpdate] using hreturned
    change (db.outbox.rows.filter _).length ≠ 0 at hcount
    obtain ⟨e, he⟩ := List.exists_mem_of_length_pos (Nat.pos_of_ne_zero hcount)
    obtain ⟨he, hsel⟩ := List.mem_filter.mp he
    simp only [Bool.and_eq_true, decide_eq_true_eq] at hsel
    exact ⟨e, he, hsel.1, backlog_iff.mp hsel.2⟩
  · rintro ⟨e, he, hid, hstatus⟩
    have hsel : (decide (e.orderId = event.orderId) && e.backlog) = true := by
      rw [Bool.and_eq_true, decide_eq_true_eq]
      exact ⟨hid, backlog_iff.mpr hstatus⟩
    have hcount : (markCompleted event.orderId now db).1 ≠ 0 := by
      change (db.outbox.rows.filter _).length ≠ 0
      exact (List.length_pos_of_mem (List.mem_filter.mpr ⟨he, hsel⟩)).ne'
    refine ⟨by simpa [retryUpdate] using hcount, (OutboxUpdate.completed now).apply e, ?_, hid, rfl⟩
    exact mem_updateOutbox.mpr ⟨e, he, by rw [if_pos hsel]⟩

/-- **When `retry` closes an order that exists.** From any state in which a call has read its event
and the order has a row, through its lookup and whatever others do before its update: the call
returns normally with the row completed iff the row is pending or sent when the update runs. -/
theorem recovery_closes_iff (rejects : Reservation → Bool) {s t : State} {bs : List Action}
    {i : ℕ} {event : OutboxRow} {deadLetter : Bool}
    (hread : s.recoveries i = some (.read event deadLetter))
    (horder : s.db.hasOrder event.orderId = true) (hothers : ∀ a ∈ bs, a.recovery ≠ some i)
    (hrun : run (step rejects) s (.retryLookup i :: bs) = some t) (backoff : RetryBackoff)
    (reason : Text) (localNow now : Time) :
    ∃ orderExists, t.recoveries i = some (.looked event deadLetter orderExists) ∧
      (Closes event (retryUpdate backoff event orderExists reason localNow now t.db) ↔
        ∃ e ∈ t.db.outbox.rows,
          e.orderId = event.orderId ∧ (e.status = .pending ∨ e.status = .sent)) := by
  obtain ⟨u, hlookup, hbs⟩ := run_cons.mp hrun
  have hu : u.recoveries i = some (.looked event deadLetter true) := by
    simp only [step, hread, Option.some.injEq] at hlookup
    subst hlookup
    simp [selectById_isSome, horder]
  exact ⟨true, (run_recoveries hothers hbs).trans hu, retryUpdate_closes_iff⟩

/-! ## A persisted order in manual review -/

/-- The order is persisted, its row is in manual review, and no call still believes that the order
does not exist. -/
structure Parked (o : OrderId) (s : State) : Prop where
  row : ∃ e ∈ s.db.outbox.rows, e.orderId = o ∧ e.status = .manualReview
  order : s.db.hasOrder o = true
  known : ∀ i event deadLetter,
    s.recoveries i = some (.looked event deadLetter false) → event.orderId ≠ o

theorem parked_step {o : OrderId} {a : Action} (hs : Coherent rejects s) (h : Parked o s)
    (hstep : step rejects s a = some t) : Parked o t := by
  refine ⟨?_, (step_grows hs hstep).hasOrder h.order, fun i event deadLetter hi he => ?_⟩
  · obtain ⟨e, he, hid, hstatus⟩ := h.row
    obtain ⟨e', he', hchange⟩ := step_changes hstep e he
    have hid' : e'.orderId = o :=
      (congrArg Reservation.orderId hchange.identity.2.2).trans hid
    refine ⟨e', he', hid', (hchange.manualReview hstatus).resolve_right ?_⟩
    rintro ⟨i, backoff, reason, localNow, now, event, deadLetter, -, hi, heq⟩
    exact h.known i event deadLetter hi (heq.symm.trans hid)
  · rcases looked_step hstep hi with hold | hfound
    · exact h.known i event deadLetter hold he
    · rw [he, h.order] at hfound
      exact absurd hfound (by simp)

/-- **A persisted order in manual review stays there**, whatever runs: neither `retry` nor the
consumer moves its row. -/
theorem manual_review_stuck {o : OrderId} {as : List Action} (hs : Coherent rejects s)
    (h : Parked o s) (hrun : run (step rejects) s as = some t) :
    ∃ e ∈ t.db.outbox.rows, e.orderId = o ∧ e.status = .manualReview :=
  (run_invariant' (I := fun s => Coherent rejects s ∧ Parked o s)
    (fun _ _ _ hs hstep => ⟨coherent_step hs.1 hstep, parked_step hs.1 hs.2 hstep⟩)
    ⟨hs, h⟩ hrun).2.row

/-! ## Two runs -/

/-- Order 1 is bought, relayed and sent, and its message ends on the dead-letter topic. -/
def deadLettered : List Action :=
  buy 1 5 :: relayOne ++
    [.send (rowOf 1 1 5) true, .readDeadLetter 0 ((rowOf 1 1 5).toMessage true)]

/-- The dead-letter call has failed and the row is in manual review; then a duplicate of the
message persists the order. -/
def parked : List Action :=
  [.retryThrow 0, .markManualReview 0 [] 0, .createOrders atZero [(rowOf 1 1 5).toMessage true]]

/-- The row in manual review. -/
def reviewedRow : OutboxRow := { rowOf 1 1 5 with status := .manualReview, lastError := some [] }

/-- A second call has looked before the order existed, and a third one has read the row in manual
review. -/
def waiting : State :=
  (run (step fun _ => false) (onSale 2)
    (deadLettered ++ [.readDeadLetter 1 ((rowOf 1 1 5).toMessage true), .retryLookup 1] ++ parked ++
      [.readManualReview 0 reviewedRow])).get (by decide +kernel)

/-- The second call requeues the row between the two statements of the third, which closes it. -/
theorem recovery_closes_iff_requeued : ∃ t,
    run (step fun _ => false) waiting (.retryLookup 0 :: [.retryUpdate 1 ⟨1, 300⟩ [] 0 0]) =
      some t ∧
      ∃ orderExists, t.recoveries 0 = some (.looked reviewedRow false orderExists) ∧
        (Closes reviewedRow (retryUpdate ⟨1, 300⟩ reviewedRow orderExists [] 0 0 t.db) ↔
          ∃ e ∈ t.db.outbox.rows, e.orderId = reviewedRow.orderId ∧
            (e.status = .pending ∨ e.status = .sent)) := by
  obtain ⟨t, ht⟩ := Option.isSome_iff_exists.mp
    (show (run (step fun _ => false) waiting
      (.retryLookup 0 :: [.retryUpdate 1 ⟨1, 300⟩ [] 0 0])).isSome = true by decide +kernel)
  exact ⟨t, ht, recovery_closes_iff (fun _ => false) (by decide +kernel) (by decide +kernel)
    (by simp [Action.recovery]) ht ⟨1, 300⟩ [] 0 0⟩

/-- The duplicate has persisted the order, and the manual review reads its row. -/
def inReview : State :=
  (run (step fun _ => false) (onSale 2)
    (deadLettered ++ parked ++ [.readManualReview 0 reviewedRow])).get (by decide +kernel)

/-- **The law fails**: for a persisted order in manual review `retry` throws, and the row stays. -/
theorem review_is_not_closed :
    ¬∀ (rejects : Reservation → Bool) (s t : State) (as bs : List Action) (i : ℕ)
      (event : OutboxRow) (deadLetter orderExists : Bool),
      run (step rejects) (onSale 2) as = some s →
      s.recoveries i = some (.read event deadLetter) → s.db.hasOrder event.orderId = true →
      (∀ a ∈ bs, a.recovery ≠ some i) → run (step rejects) s (.retryLookup i :: bs) = some t →
      t.recoveries i = some (.looked event deadLetter orderExists) →
      Closes event (retryUpdate ⟨1, 300⟩ event orderExists [] 0 0 t.db) := by
  intro h
  obtain ⟨t, ht, hlooked, hclosed⟩ : ∃ t,
      run (step fun _ => false) inReview (.retryLookup 0 :: []) = some t ∧
        t.recoveries 0 = some (.looked reviewedRow false true) ∧
        (retryUpdate ⟨1, 300⟩ reviewedRow true [] 0 0 t.db).1 = false := by
    obtain ⟨t, ht, heq⟩ := Option.map_eq_some_iff.mp
      (show (run (step fun _ => false) inReview (.retryLookup 0 :: [])).map
        (fun t => (t.recoveries 0, (retryUpdate ⟨1, 300⟩ reviewedRow true [] 0 0 t.db).1)) =
          some (some (.looked reviewedRow false true), false) by decide +kernel)
    simp only [Prod.mk.injEq] at heq
    exact ⟨t, ht, heq⟩
  have := (h (fun _ => false) inReview t _ [] 0 reviewedRow false true (Option.some_get _).symm
    (by decide +kernel) (by decide +kernel) (by simp) ht hlooked).1
  rw [hclosed] at this
  exact absurd this (by simp)

end Hmdp.Pipeline
