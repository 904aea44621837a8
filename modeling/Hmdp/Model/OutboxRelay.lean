import Hmdp.Model.Mysql
import Hmdp.Model.Recovery
import Mathlib.Data.List.Sort

/-!
# `SeckillOrderOutboxRelay`

A round of `relayPending`: the candidates are read, claimed by a conditional update and read again
by owner; then `dispatchBatch` sends them and settles the outcome with one `markSentBatch` and one
`scheduleRetryBatch` for each backoff. `RelayPhase` is where a relay stands between two
statements, with its local variables.
-/

namespace Hmdp.Model

/-- The configured bounds of the relay, in seconds. -/
structure RelayConfig where
  batchSize : ℕ
  relayLeaseSeconds : ℤ
  sentRecheckSeconds : ℤ
  backoff : RetryBackoff

/-- `findDispatchable`. -/
def findDispatchable (limit : ℕ) (now : Time) (db : Db) : List OutboxRow :=
  ((db.outbox.rows.filter fun e => e.dispatchable now).insertionSort fun a b => a.id ≤ b.id).take
    limit

/-- `findClaimedBatch`; the columns it leaves out are not read. -/
def findClaimedBatch (ids : List ℕ) (owner : Text) (db : Db) : List OutboxRow :=
  db.outbox.rows.filter fun e => decide (e.relayOwner = some owner) && decide (e.id ∈ ids)

/-! ## `dispatchBatch` -/

/-- `sentIds`, sorted; `delivered` says which sends have succeeded. -/
def sentIds (delivered : OutboxRow → Bool) (pending : List OutboxRow) : List ℕ :=
  ((pending.filter delivered).map fun e => e.id).insertionSort (· ≤ ·)

/-- `failedIdsByBackoff.computeIfAbsent(backoff, …).add(id)`. -/
def addFailed (backoff : ℤ) (id : ℕ) : List (ℤ × List ℕ) → List (ℤ × List ℕ)
  | [] => [(backoff, [id])]
  | (b, ids) :: rest =>
    if b = backoff then (b, ids ++ [id]) :: rest else (b, ids) :: addFailed backoff id rest

/-- `failedIdsByBackoff` after the loop over the sends. -/
def failedIdsByBackoff (backoff : RetryBackoff) (delivered : OutboxRow → Bool)
    (pending : List OutboxRow) : List (ℤ × List ℕ) :=
  (pending.filter fun e => !delivered e).foldl
    (fun failed e => addFailed (backoff.seconds e.retryCount) e.id failed) []

/-- The ids of the groups. -/
def failedIds (failed : List (ℤ × List ℕ)) : List ℕ := failed.flatMap Prod.snd

/-! ## A round -/

/-- Where a relay stands. -/
inductive RelayPhase where
  | idle
  /-- `claimRelayBatch` is next -/
  | found (candidateIds : List ℕ)
  /-- `findClaimedBatch` is next -/
  | claimed (candidateIds : List ℕ) (leaseUntil : Time)
  /-- in the first loop of `dispatchBatch` -/
  | sending (leaseUntil : Time) (events pending : List OutboxRow)
  /-- the updates of `dispatchBatch` are next -/
  | settling (leaseUntil : Time) (sentIds : List ℕ) (failed : List (ℤ × List ℕ))
      (lastError : Text)

/-- The events of the round that are not settled yet: those the relay is dispatching. -/
def RelayPhase.outstanding : RelayPhase → List ℕ
  | .sending _ events pending => (pending ++ events).map fun e => e.id
  | .settling _ sentIds failed _ => sentIds ++ failedIds failed
  | _ => []

/-- The lease the round has claimed its events under. -/
def RelayPhase.leaseUntil : RelayPhase → Option Time
  | .claimed _ leaseUntil => some leaseUntil
  | .sending leaseUntil _ _ => some leaseUntil
  | .settling leaseUntil _ _ _ => some leaseUntil
  | _ => none

theorem mem_findDispatchable {limit : ℕ} {now : Time} {db : Db} {e : OutboxRow}
    (h : e ∈ findDispatchable limit now db) :
    e ∈ db.outbox.rows ∧ e.dispatchable now = true := by
  have h := List.mem_of_mem_take h
  rw [List.mem_insertionSort] at h
  exact List.mem_filter.mp h

theorem mem_findClaimedBatch {ids : List ℕ} {owner : Text} {db : Db} {e : OutboxRow} :
    e ∈ findClaimedBatch ids owner db ↔
      e ∈ db.outbox.rows ∧ e.relayOwner = some owner ∧ e.id ∈ ids := by
  simp [findClaimedBatch]

/-- Adding an id to the groups adds it to their ids. -/
theorem failedIds_addFailed (backoff : ℤ) (id : ℕ) (failed : List (ℤ × List ℕ)) :
    (failedIds (addFailed backoff id failed)).Perm (failedIds failed ++ [id]) := by
  induction failed with
  | nil => exact List.Perm.refl _
  | cons group rest ih =>
    obtain ⟨b, ids⟩ := group
    unfold addFailed failedIds
    split
    · simp only [List.flatMap_cons, List.append_assoc]
      exact List.perm_append_comm.append_left ids
    · simp only [List.flatMap_cons, List.append_assoc]
      exact ih.append_left ids

/-- The groups have the ids of the failed sends, each once. -/
theorem failedIds_failedIdsByBackoff (backoff : RetryBackoff) (delivered : OutboxRow → Bool)
    (pending : List OutboxRow) :
    (failedIds (failedIdsByBackoff backoff delivered pending)).Perm
      ((pending.filter fun e => !delivered e).map fun e => e.id) := by
  have hfold : ∀ (events : List OutboxRow) (failed : List (ℤ × List ℕ)),
      (failedIds (events.foldl
        (fun failed e => addFailed (backoff.seconds e.retryCount) e.id failed) failed)).Perm
          (failedIds failed ++ events.map fun e => e.id) := by
    intro events
    induction events with
    | nil => exact fun failed => by simp
    | cons e events ih =>
      intro failed
      rw [List.foldl_cons, List.map_cons, ← List.singleton_append, ← List.append_assoc]
      exact (ih _).trans ((failedIds_addFailed _ _ _).append_right _)
  exact hfold _ []

/-- **Every send is settled once**: the sent ids and the failed ids are those of the batch. -/
theorem settled_perm (backoff : RetryBackoff) (delivered : OutboxRow → Bool)
    (pending : List OutboxRow) :
    (sentIds delivered pending ++ failedIds (failedIdsByBackoff backoff delivered pending)).Perm
      (pending.map fun e => e.id) := by
  have hsent : (sentIds delivered pending).Perm ((pending.filter delivered).map fun e => e.id) :=
    List.perm_insertionSort _ _
  refine (hsent.append (failedIds_failedIdsByBackoff backoff delivered pending)).trans ?_
  rw [← List.map_append]
  exact (List.filter_append_perm delivered pending).map _

end Hmdp.Model
