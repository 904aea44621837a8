import Hmdp.Lib.Machine
import Hmdp.Model.OutboxRelay
import Hmdp.Outbox.Row

/-!
# Leases on outbox rows

Any number of relays work through their rounds beside the consumer and the writers of the outbox;
one step is one statement. A relay is known by its owner id, a fresh UUID of its process. Time
passes between any two statements, so a lease may expire anywhere and a relay may stall or stop
anywhere. The relay's own clock only enters the times it writes, and nothing depends on these.

A relay's claim is the only statement that makes it the owner of a row, so whatever it reads back
as its own it has claimed just now: a row it owned already is claimable again, since nobody else
has touched it (`owned_of_step`). And while its lease runs nobody takes the row over, unless the
consumer completes it (`Secured`).

* `step_rewrites`: what a step does to the rows.
* **`lease_ownership`**: the three laws.
-/

namespace Hmdp.Outbox.Lease

open Hmdp.Lib Hmdp.Model Hmdp.Outbox

/-! ## The machine -/

/-- The tables, the clock of MySQL and the relays. -/
structure State where
  db : Db
  now : Time
  /-- by `relayOwner` -/
  relays : Text → RelayPhase
  /-- ghost: the ids of the rows the claim of the relay's round has updated -/
  claims : Text → List ℕ

/-- The statements of a relay's round, with those of the other writers of the table. -/
inductive Action where
  | tick (later : Time)
  | insert (batch : List Reservation) (createdAt : Time)
  | createOrders (tx : Transaction) (messages : List SeckillOrderMessage)
  | findDispatchable (owner : Text)
  | claimRelayBatch (owner : Text) (localNow : Time)
  | findClaimedBatch (owner : Text)
  | send (owner : Text)
  /-- the sends have ended; `delivered` says which of them successfully -/
  | await (owner : Text) (delivered : OutboxRow → Bool) (lastError : Text)
  | markSentBatch (owner : Text) (localNow : Time)
  | scheduleRetryBatch (owner : Text) (localNow : Time)
  /-- the round ends, by its return or by an exception anywhere -/
  | stop (owner : Text)

/-- The relay a step belongs to. -/
def Action.relay : Action → Option Text
  | .tick _ => none
  | .insert _ _ => none
  | .createOrders _ _ => none
  | .findDispatchable owner => some owner
  | .claimRelayBatch owner _ => some owner
  | .findClaimedBatch owner => some owner
  | .send owner => some owner
  | .await owner _ _ => some owner
  | .markSentBatch owner _ => some owner
  | .scheduleRetryBatch owner _ => some owner
  | .stop owner => some owner

/-- A relay goes on to the next phase. -/
def State.withRelay (s : State) (owner : Text) (phase : RelayPhase) : State :=
  { s with relays := Function.update s.relays owner phase }

/-- What the relay has claimed is noted. -/
def State.withClaims (s : State) (owner : Text) (ids : List ℕ) : State :=
  { s with claims := Function.update s.claims owner ids }

/-- The tables change. -/
def State.withDb (s : State) (db : Db) : State := { s with db := db }

/-- One step; `none` where the relay is not where the action needs it. -/
def step (rejects : Reservation → Bool) (config : RelayConfig) (s : State) :
    Action → Option State
  | .tick later => if s.now ≤ later then some { s with now := later } else none
  | .insert batch createdAt =>
    match insertCommitted rejects (batch.map (SeckillOrderOutboxEvent.pending createdAt)) s.db with
    | .error _ => some s
    | .ok (_, db) => some (s.withDb db)
  | .createOrders tx messages =>
    match createOrders tx messages s.db with
    | .error _ => some s
    | .ok (_, db) => some (s.withDb db)
  | .findDispatchable owner =>
    match s.relays owner with
    | .idle =>
      let events := findDispatchable config.batchSize s.now s.db
      let next := if events = [] then .idle else .found (events.map fun e => e.id)
      some ((s.withRelay owner next).withClaims owner [])
    | _ => none
  | .claimRelayBatch owner localNow =>
    match s.relays owner with
    | .found ids =>
      let leaseUntil := localNow + config.relayLeaseSeconds
      let updated := claimRelayBatch ids owner leaseUntil s.now s.db
      let next := if updated.1 = 0 then .idle else .claimed ids leaseUntil
      let rows := s.db.outbox.rows.filter fun e => decide (e.id ∈ ids) && e.dispatchable s.now
      some (((s.withDb updated.2).withRelay owner next).withClaims owner (rows.map fun e => e.id))
    | _ => none
  | .findClaimedBatch owner =>
    match s.relays owner with
    | .claimed ids leaseUntil =>
      let events := findClaimedBatch ids owner s.db
      some (s.withRelay owner (if events = [] then .idle else .sending leaseUntil events []))
    | _ => none
  | .send owner =>
    match s.relays owner with
    | .sending leaseUntil (event :: events) pending =>
      some (s.withRelay owner (.sending leaseUntil events (pending ++ [event])))
    | _ => none
  | .await owner delivered lastError =>
    match s.relays owner with
    | .sending leaseUntil [] pending =>
      some (s.withRelay owner (.settling leaseUntil (sentIds delivered pending)
        (failedIdsByBackoff config.backoff delivered pending) lastError))
    | _ => none
  | .markSentBatch owner localNow =>
    match s.relays owner with
    | .settling leaseUntil (id :: ids) failed lastError =>
      let nextCheckTime := localNow + config.sentRecheckSeconds
      let updated := markSentBatch (id :: ids) owner nextCheckTime s.now s.db
      some ((s.withDb updated.2).withRelay owner (.settling leaseUntil [] failed lastError))
    | _ => none
  | .scheduleRetryBatch owner localNow =>
    match s.relays owner with
    | .settling leaseUntil [] ((backoff, ids) :: failed) lastError =>
      let nextRetryTime := localNow + backoff
      let updated := scheduleRetryBatch ids owner nextRetryTime lastError s.now s.db
      some ((s.withDb updated.2).withRelay owner (.settling leaseUntil [] failed lastError))
    | _ => none
  | .stop owner => some (s.withRelay owner .idle)

/-- No relay is in a round. -/
def Start (s : State) : Prop := ∀ owner, s.relays owner = .idle

variable {rejects : Reservation → Bool} {config : RelayConfig} {s t : State} {a : Action}
  {owner : Text} {e : OutboxRow}

/-! ## What a step does to the rows -/

/-- What a step can do to a row. -/
inductive Rewrite (s : State) (a : Action) (e e' : OutboxRow) : Prop
  | kept (same : e' = e)
  | claimed (owner : Text) (localNow : Time) (action : a = .claimRelayBatch owner localNow)
      (guard : e.dispatchable s.now = true) (owned : e'.relayOwner = some owner)
  | released (owner : Text) (action : a.relay = some owner) (owned : e.relayOwner = some owner)
      (guard : e.backlog = true) (free : e'.relayOwner = none)
  | completed (action : a.relay = none) (guard : e.backlog = true) (free : e'.relayOwner = none)
      (status : e'.status = .completed)

/-- Every row is rewritten so, and a new row has no owner. -/
structure Rewrites (s : State) (a : Action) (db : Db) : Prop where
  forward : ∀ e ∈ s.db.outbox.rows, ∃ e' ∈ db.outbox.rows, e'.id = e.id ∧ Rewrite s a e e'
  backward : ∀ e' ∈ db.outbox.rows,
    (∃ e ∈ s.db.outbox.rows, e'.id = e.id ∧ Rewrite s a e e') ∨ e'.relayOwner = none

theorem rewrites_refl : Rewrites s a s.db :=
  ⟨fun e he => ⟨e, he, rfl, .kept rfl⟩, fun e he => Or.inl ⟨e, he, rfl, .kept rfl⟩⟩

theorem rewrites_updateOutbox {sel : OutboxRow → Bool} {f : OutboxUpdate} {db : Db}
    (hdb : db.outbox = s.db.outbox) (h : ∀ e, sel e = true → Rewrite s a e (f.apply e)) :
    Rewrites s a (updateOutbox sel f db).2 := by
  have hrow : ∀ e : OutboxRow, (if sel e then f.apply e else e).id = e.id ∧
      Rewrite s a e (if sel e then f.apply e else e) := by
    intro e
    split
    · rename_i hsel
      exact ⟨f.id_apply e, h e hsel⟩
    · exact ⟨rfl, .kept rfl⟩
  refine ⟨fun e he => ⟨_, mem_updateOutbox.mpr ⟨e, by rwa [hdb], rfl⟩, hrow e⟩, fun e' he' => ?_⟩
  obtain ⟨e, he, rfl⟩ := mem_updateOutbox.mp he'
  exact Or.inl ⟨e, by rwa [← hdb], hrow e⟩

/-- A numbered row has the owner of its event. -/
theorem relayOwner_numbered {events : List SeckillOrderOutboxEvent} :
    ∀ {seq : ℕ}, e ∈ numbered seq events → ∃ x ∈ events, e.relayOwner = x.relayOwner := by
  induction events with
  | nil => exact fun h => absurd h List.not_mem_nil
  | cons x events ih =>
    intro seq h
    rcases List.mem_cons.mp h with rfl | h
    · exact ⟨x, List.mem_cons_self, rfl⟩
    · obtain ⟨y, hy, howner⟩ := ih h
      exact ⟨y, List.mem_cons_of_mem _ hy, howner⟩

theorem rewrites_insertCommitted {batch : List Reservation} {createdAt : Time}
    {accepted : List SeckillOrderOutboxEvent} {db : Db}
    (h : insertCommitted rejects (batch.map (SeckillOrderOutboxEvent.pending createdAt)) s.db =
      .ok (accepted, db)) : Rewrites s a db := by
  rw [(insertCommitted_ok h).2.1]
  refine ⟨fun e he => ⟨e, mem_insertIgnoreBatch.mpr (Or.inl he), rfl, .kept rfl⟩, fun e he => ?_⟩
  rcases mem_insertIgnoreBatch.mp he with he | he
  · exact Or.inl ⟨e, he, rfl, .kept rfl⟩
  · obtain ⟨x, hx, howner⟩ := relayOwner_numbered (mem_rows_of_mem_newRows he)
    obtain ⟨r, -, rfl⟩ := List.mem_map.mp hx
    exact Or.inr howner

theorem rewrites_createOrders {tx : Transaction} {messages : List SeckillOrderMessage}
    {os : List OrderDraft} {db : Db} (ha : a.relay = none)
    (h : createOrders tx messages s.db = .ok (os, db)) : Rewrites s a db := by
  obtain ⟨c, d, -, -, hp, ⟨-, rfl⟩ | rfl⟩ := createOrders_ok h
  · refine ⟨fun e he => ⟨e, by rwa [hp.outbox], rfl, .kept rfl⟩,
      fun e he => Or.inl ⟨e, ?_, rfl, .kept rfl⟩⟩
    rwa [← hp.outbox]
  · obtain ⟨sel, heq, -⟩ := completeOutbox_eq tx c d
    rw [heq]
    refine rewrites_updateOutbox hp.outbox fun e hsel => ?_
    rw [Bool.and_eq_true] at hsel
    exact .completed ha hsel.2 rfl rfl

/-- **What a step does to the rows.** -/
theorem step_rewrites (hstep : step rejects config s a = some t) : Rewrites s a t.db := by
  cases a with
  | tick later =>
    simp only [step] at hstep
    split at hstep <;> cases hstep
    exact rewrites_refl
  | insert batch createdAt =>
    simp only [step] at hstep
    split at hstep <;> cases hstep
    · exact rewrites_refl
    · rename_i hok
      exact rewrites_insertCommitted hok
  | createOrders tx messages =>
    simp only [step] at hstep
    split at hstep <;> cases hstep
    · exact rewrites_refl
    · rename_i hok
      exact rewrites_createOrders rfl hok
  | claimRelayBatch owner localNow =>
    simp only [step] at hstep
    split at hstep <;> cases hstep
    refine rewrites_updateOutbox rfl fun e hsel => ?_
    rw [Bool.and_eq_true] at hsel
    exact .claimed owner localNow rfl hsel.2 rfl
  | markSentBatch owner localNow =>
    simp only [step] at hstep
    split at hstep <;> cases hstep
    refine rewrites_updateOutbox rfl fun e hsel => ?_
    simp only [Bool.and_eq_true, decide_eq_true_eq] at hsel
    exact .released owner rfl hsel.1.1 hsel.2 rfl
  | scheduleRetryBatch owner localNow =>
    simp only [step] at hstep
    split at hstep <;> cases hstep
    refine rewrites_updateOutbox rfl fun e hsel => ?_
    simp only [Bool.and_eq_true, decide_eq_true_eq] at hsel
    exact .released owner rfl hsel.1.1 hsel.2 rfl
  | findDispatchable owner =>
    simp only [step] at hstep
    split at hstep <;> cases hstep
    exact rewrites_refl
  | findClaimedBatch owner =>
    simp only [step] at hstep
    split at hstep <;> cases hstep
    exact rewrites_refl
  | send owner =>
    simp only [step] at hstep
    split at hstep <;> cases hstep
    exact rewrites_refl
  | await owner delivered lastError =>
    simp only [step] at hstep
    split at hstep <;> cases hstep
    exact rewrites_refl
  | stop owner =>
    cases hstep
    exact rewrites_refl

/-- **Only its own claim makes a relay the owner of a row**: after any other step its rows are
rows it owned before, untouched. -/
theorem owned_of_step (hstep : step rejects config s a = some t)
    (hclaim : ∀ localNow, a ≠ .claimRelayBatch owner localNow) (he : e ∈ t.db.outbox.rows)
    (howner : e.relayOwner = some owner) : e ∈ s.db.outbox.rows := by
  rcases (step_rewrites hstep).backward e he with ⟨e₀, he₀, -, hrw⟩ | hfree
  · cases hrw with
    | kept same => rwa [same]
    | claimed other localNow action guard owned =>
      cases owned.symm.trans howner
      exact absurd action (hclaim localNow)
    | released _ _ _ _ free => exact absurd (free.symm.trans howner) (by simp)
    | completed _ _ free _ => exact absurd (free.symm.trans howner) (by simp)
  · exact absurd (hfree.symm.trans howner) (by simp)

/-! ## What a step does to the relays -/

/-- A step of another relay, or of none, leaves a relay alone. -/
theorem relay_of_step (hstep : step rejects config s a = some t) (ha : a.relay ≠ some owner) :
    t.relays owner = s.relays owner ∧ t.claims owner = s.claims owner := by
  have hne : ∀ {other : Text}, some other ≠ some owner → owner ≠ other :=
    fun h he => h (congrArg some he.symm)
  cases a with
  | tick later =>
    simp only [step] at hstep
    split at hstep <;> cases hstep
    exact ⟨rfl, rfl⟩
  | insert batch createdAt =>
    simp only [step] at hstep
    split at hstep <;> cases hstep <;> exact ⟨rfl, rfl⟩
  | createOrders tx messages =>
    simp only [step] at hstep
    split at hstep <;> cases hstep <;> exact ⟨rfl, rfl⟩
  | findDispatchable other =>
    simp only [step] at hstep
    split at hstep <;> cases hstep
    exact ⟨Function.update_of_ne (hne ha) _ _, Function.update_of_ne (hne ha) _ _⟩
  | claimRelayBatch other localNow =>
    simp only [step] at hstep
    split at hstep <;> cases hstep
    exact ⟨Function.update_of_ne (hne ha) _ _, Function.update_of_ne (hne ha) _ _⟩
  | findClaimedBatch other =>
    simp only [step] at hstep
    split at hstep <;> cases hstep
    exact ⟨Function.update_of_ne (hne ha) _ _, rfl⟩
  | send other =>
    simp only [step] at hstep
    split at hstep <;> cases hstep
    exact ⟨Function.update_of_ne (hne ha) _ _, rfl⟩
  | await other delivered lastError =>
    simp only [step] at hstep
    split at hstep <;> cases hstep
    exact ⟨Function.update_of_ne (hne ha) _ _, rfl⟩
  | markSentBatch other localNow =>
    simp only [step] at hstep
    split at hstep <;> cases hstep
    exact ⟨Function.update_of_ne (hne ha) _ _, rfl⟩
  | scheduleRetryBatch other localNow =>
    simp only [step] at hstep
    split at hstep <;> cases hstep
    exact ⟨Function.update_of_ne (hne ha) _ _, rfl⟩
  | stop other =>
    cases hstep
    exact ⟨Function.update_of_ne (hne ha) _ _, rfl⟩

theorem now_of_step (hstep : step rejects config s a = some t) : s.now ≤ t.now := by
  cases a with
  | tick later =>
    simp only [step] at hstep
    split at hstep
    · rename_i hle
      cases hstep
      exact hle
    · exact absurd hstep (by simp)
  | stop other =>
    cases hstep
    exact Int.le_refl _
  | _ =>
    simp only [step] at hstep
    split at hstep <;> cases hstep <;> exact Int.le_refl _

/-! ## The invariant -/

/-- The row of an event the relay has claimed under this lease: still the relay's, or completed,
unless the lease has expired. -/
def Secured (s : State) (owner : Text) (leaseUntil : Time) (id : ℕ) : Prop :=
  ∃ e ∈ s.db.outbox.rows, e.id = id ∧ (leaseUntil < s.now ∨
    (e.relayOwner = some owner ∧ e.relayLeaseUntil = some leaseUntil) ∨
      (e.relayOwner = none ∧ e.status = .completed))

/-- The events of a batch: distinct, claimed in this round, and secured. -/
structure BatchOk (s : State) (owner : Text) (leaseUntil : Time) (ids : List ℕ) : Prop where
  nodup : ids.Nodup
  claimed : ∀ id ∈ ids, id ∈ s.claims owner
  secured : ∀ id ∈ ids, Secured s owner leaseUntil id

/-- What a relay's local variables say about the rows. -/
def PhaseOk (s : State) (owner : Text) : RelayPhase → Prop
  | .idle => True
  | .found ids => ∀ e ∈ s.db.outbox.rows, e.id ∈ ids → e.relayOwner = some owner →
      e.dispatchable s.now = true
  | .claimed ids leaseUntil => ∀ e ∈ s.db.outbox.rows, e.id ∈ ids → e.relayOwner = some owner →
      e.id ∈ s.claims owner ∧ e.relayLeaseUntil = some leaseUntil
  | .sending leaseUntil events pending =>
      BatchOk s owner leaseUntil ((pending ++ events).map fun e => e.id)
  | .settling leaseUntil sentIds failed _ =>
      BatchOk s owner leaseUntil (sentIds ++ failedIds failed)

theorem BatchOk.of_perm {leaseUntil : Time} {ids ids' : List ℕ} (h : BatchOk s owner leaseUntil ids)
    (hp : ids'.Perm ids) : BatchOk s owner leaseUntil ids' :=
  ⟨hp.nodup_iff.mpr h.nodup, fun id hid => h.claimed id (hp.subset hid),
    fun id hid => h.secured id (hp.subset hid)⟩

theorem BatchOk.withRelay {leaseUntil : Time} {ids : List ℕ} (h : BatchOk s owner leaseUntil ids)
    (phase : RelayPhase) : BatchOk (s.withRelay owner phase) owner leaseUntil ids :=
  ⟨h.nodup, h.claimed, h.secured⟩

/-- **A claimed event stays secured** through the steps of the others. -/
theorem secured_step {leaseUntil : Time} {id : ℕ} (hstep : step rejects config s a = some t)
    (ha : a.relay ≠ some owner) (h : Secured s owner leaseUntil id) :
    Secured t owner leaseUntil id := by
  obtain ⟨e, he, rfl, hcase⟩ := h
  obtain ⟨e', he', hid, hrw⟩ := (step_rewrites hstep).forward e he
  have hnow := now_of_step hstep
  rcases hcase with hexp | ⟨howner, hlease⟩ | ⟨howner, hstatus⟩
  · exact ⟨e', he', hid, Or.inl (Int.lt_of_lt_of_le hexp hnow)⟩
  · refine ⟨e', he', hid, ?_⟩
    cases hrw with
    | kept same => exact Or.inr (Or.inl (by rw [same]; exact ⟨howner, hlease⟩))
    | claimed other localNow action guard owned =>
      exact Or.inl (Int.lt_of_lt_of_le (lease_of_dispatchable guard hlease) hnow)
    | released other action owned guard free =>
      rw [howner] at owned
      exact absurd (action.trans owned.symm) ha
    | completed _ guard free status => exact Or.inr (Or.inr ⟨free, status⟩)
  · refine ⟨e', he', hid, Or.inr (Or.inr ?_)⟩
    have hnot : e.backlog ≠ true := fun hb => absurd (backlog_iff.mp hb) (by simp [hstatus])
    cases hrw with
    | kept same => exact same ▸ ⟨howner, hstatus⟩
    | claimed _ _ _ guard _ => exact absurd (backlog_of_dispatchable guard) hnot
    | released _ _ _ guard _ => exact absurd guard hnot
    | completed _ guard _ _ => exact absurd guard hnot

/-- **The steps of the others** keep what a relay knows. -/
theorem phaseOk_others (hstep : step rejects config s a = some t) (ha : a.relay ≠ some owner)
    {phase : RelayPhase} (h : PhaseOk s owner phase) : PhaseOk t owner phase := by
  have hclaims := (relay_of_step hstep ha).2
  have howned : ∀ e ∈ t.db.outbox.rows, e.relayOwner = some owner → e ∈ s.db.outbox.rows :=
    fun e he => owned_of_step hstep (fun localNow heq => ha (by rw [heq]; rfl)) he
  have hbatch : ∀ {leaseUntil ids}, BatchOk s owner leaseUntil ids →
      BatchOk t owner leaseUntil ids :=
    fun hb => ⟨hb.nodup, fun id hid => hclaims ▸ hb.claimed id hid,
      fun id hid => secured_step hstep ha (hb.secured id hid)⟩
  cases phase with
  | idle => trivial
  | found ids =>
    intro e he hid howner
    exact dispatchable_mono (now_of_step hstep) (h e (howned e he howner) hid howner)
  | claimed ids leaseUntil =>
    intro e he hid howner
    rw [hclaims]
    exact h e (howned e he howner) hid howner
  | sending leaseUntil events pending => exact hbatch h
  | settling leaseUntil sentIds failed lastError => exact hbatch h

@[simp] theorem withRelay_relays_self (phase : RelayPhase) :
    (s.withRelay owner phase).relays owner = phase :=
  Function.update_self _ _ _

/-- The rows of an owner have distinct ids. -/
theorem nodup_findClaimedBatch (ids : List ℕ) (owner : Text) (db : Db) :
    ((findClaimedBatch ids owner db).map fun e => e.id).Nodup := by
  have hids : (db.outbox.rows.map fun e => e.id).Nodup := by
    refine List.pairwise_map.mpr (db.outbox.unique.imp fun {a b} h he => ?_)
    rw [outboxKeys_clash.mpr (Or.inl he)] at h
    exact absurd h (by simp)
  exact (List.filter_sublist.map _).nodup hids

/-- The claim: what the relay owns among its candidates it has just claimed. -/
theorem phaseOk_claim {ids : List ℕ} {leaseUntil : Time} {claims : List ℕ}
    (h : PhaseOk s owner (.found ids))
    (hclaims : claims = (s.db.outbox.rows.filter fun e =>
      decide (e.id ∈ ids) && e.dispatchable s.now).map fun e => e.id) {e : OutboxRow}
    (he : e ∈ (claimRelayBatch ids owner leaseUntil s.now s.db).2.outbox.rows)
    (hid : e.id ∈ ids) (howner : e.relayOwner = some owner) :
    e.id ∈ claims ∧ e.relayLeaseUntil = some leaseUntil := by
  obtain ⟨r, hr, heq⟩ := mem_updateOutbox.mp he
  split at heq
  · rename_i hsel
    subst heq
    exact ⟨hclaims ▸ List.mem_map.mpr ⟨r, List.mem_filter.mpr ⟨hr, hsel⟩, rfl⟩, rfl⟩
  · rename_i hsel
    subst heq
    -- the relay owned this candidate before its claim, so the claim must have matched it
    exact absurd (by simp [hid, h r hr hid howner]) hsel

/-- An update settles the first part of a batch: the rest is as before. -/
theorem batchOk_settle {sel : OutboxRow → Bool} {f : OutboxUpdate} {leaseUntil : Time}
    {ids rest : List ℕ} (h : BatchOk s owner leaseUntil (ids ++ rest))
    (hsel : ∀ e, sel e = true → e.id ∈ ids) :
    BatchOk (s.withDb (updateOutbox sel f s.db).2) owner leaseUntil rest := by
  obtain ⟨-, hrest, hapart⟩ := List.nodup_append.mp h.nodup
  refine ⟨hrest, fun id hid => h.claimed id (List.mem_append_right _ hid), fun id hid => ?_⟩
  obtain ⟨e, he, rfl, hcase⟩ := h.secured id (List.mem_append_right _ hid)
  have hkept : ¬sel e = true := fun hs => hapart _ (hsel e hs) _ hid rfl
  exact ⟨e, mem_updateOutbox.mpr ⟨e, he, if_neg hkept⟩, rfl, hcase⟩

/-- **The relay's own steps.** -/
theorem phaseOk_own (hstep : step rejects config s a = some t) (ha : a.relay = some owner)
    (h : PhaseOk s owner (s.relays owner)) : PhaseOk t owner (t.relays owner) := by
  cases a with
  | tick later => cases ha
  | insert batch createdAt => cases ha
  | createOrders tx messages => cases ha
  | findDispatchable other =>
    cases ha
    simp only [step] at hstep
    split at hstep <;> cases hstep
    rw [State.withClaims, withRelay_relays_self]
    split
    · trivial
    · intro e he hid howner
      obtain ⟨r, hr, hrid⟩ := List.mem_map.mp hid
      obtain ⟨hr, hdue⟩ := mem_findDispatchable hr
      rwa [← row_unique s.db hr he hrid]
  | claimRelayBatch other localNow =>
    cases ha
    simp only [step] at hstep
    split at hstep <;> cases hstep
    rename_i ids hphase
    rw [hphase] at h
    rw [State.withClaims, withRelay_relays_self]
    split
    · trivial
    · intro e he hid howner
      obtain ⟨hclaimed, hlease⟩ := phaseOk_claim h rfl he hid howner
      refine ⟨?_, hlease⟩
      show e.id ∈ Function.update s.claims owner _ owner
      rwa [Function.update_self]
  | findClaimedBatch other =>
    cases ha
    simp only [step] at hstep
    split at hstep <;> cases hstep
    rename_i ids leaseUntil hphase
    rw [hphase] at h
    rw [withRelay_relays_self]
    split
    · trivial
    · have hrow : ∀ id ∈ (findClaimedBatch ids owner s.db).map (fun e => e.id),
          ∃ e ∈ s.db.outbox.rows, e.id = id ∧ e.relayOwner = some owner ∧
            e.id ∈ s.claims owner ∧ e.relayLeaseUntil = some leaseUntil := by
        intro id hid
        obtain ⟨e, he, rfl⟩ := List.mem_map.mp hid
        obtain ⟨he, howner, hid⟩ := mem_findClaimedBatch.mp he
        exact ⟨e, he, rfl, howner, h e he hid howner⟩
      refine ⟨nodup_findClaimedBatch ids owner s.db, fun id hid => ?_, fun id hid => ?_⟩
      · obtain ⟨e, -, rfl, -, hclaimed, -⟩ := hrow id hid
        exact hclaimed
      · obtain ⟨e, he, rfl, howner, -, hlease⟩ := hrow id hid
        exact ⟨e, he, rfl, Or.inr (Or.inl ⟨howner, hlease⟩)⟩
  | send other =>
    cases ha
    simp only [step] at hstep
    split at hstep <;> cases hstep
    rename_i leaseUntil event events pending hphase
    rw [hphase] at h
    rw [withRelay_relays_self]
    have hb : BatchOk s owner leaseUntil ((pending ++ event :: events).map fun e => e.id) := h
    exact (hb.of_perm (by simp)).withRelay _
  | await other delivered lastError =>
    cases ha
    simp only [step] at hstep
    split at hstep <;> cases hstep
    rename_i leaseUntil pending hphase
    rw [hphase] at h
    rw [withRelay_relays_self]
    have hb : BatchOk s owner leaseUntil ((pending ++ []).map OutboxRow.id) := h
    exact (hb.of_perm (by simpa using settled_perm config.backoff delivered pending)).withRelay _
  | markSentBatch other localNow =>
    cases ha
    simp only [step] at hstep
    split at hstep <;> cases hstep
    rename_i leaseUntil id ids failed lastError hphase
    rw [hphase] at h
    rw [withRelay_relays_self]
    have hb : BatchOk s owner leaseUntil (id :: ids ++ failedIds failed) := h
    refine (batchOk_settle hb fun e hsel => ?_).withRelay _
    simp only [Bool.and_eq_true, decide_eq_true_eq] at hsel
    exact hsel.1.2
  | scheduleRetryBatch other localNow =>
    cases ha
    simp only [step] at hstep
    split at hstep <;> cases hstep
    rename_i leaseUntil backoff ids failed lastError hphase
    rw [hphase] at h
    rw [withRelay_relays_self]
    have hb : BatchOk s owner leaseUntil (ids ++ failedIds failed) := h
    refine (batchOk_settle hb fun e hsel => ?_).withRelay _
    simp only [Bool.and_eq_true, decide_eq_true_eq] at hsel
    exact hsel.1.2
  | stop other =>
    cases ha
    cases hstep
    rw [withRelay_relays_self]
    trivial

/-! ## One relay at a time -/

/-- Two relays in the middle of the same event: one of the leases has expired. -/
def Apart (s : State) : Prop :=
  ∀ i j id leaseᵢ leaseⱼ, i ≠ j → id ∈ (s.relays i).outstanding → id ∈ (s.relays j).outstanding →
    (s.relays i).leaseUntil = some leaseᵢ → (s.relays j).leaseUntil = some leaseⱼ →
    leaseᵢ < s.now ∨ leaseⱼ < s.now

/-- **The invariant**: what a relay has in hand it has claimed, and where two have the same event
a lease has expired. -/
structure Ordered (s : State) : Prop where
  phases : ∀ owner, PhaseOk s owner (s.relays owner)
  apart : Apart s

theorem Start.ordered (h : Start s) : Ordered s where
  phases owner := by
    rw [h owner]
    trivial
  apart i j id _ _ _ hi := by
    rw [h i] at hi
    exact absurd hi List.not_mem_nil

/-- What a relay is dispatching it has been dispatching, or it reads it back now as its own. -/
theorem outstanding_of_step (hstep : step rejects config s a = some t) {id : ℕ}
    (h : id ∈ (t.relays owner).outstanding) :
    (id ∈ (s.relays owner).outstanding ∧
      (t.relays owner).leaseUntil = (s.relays owner).leaseUntil) ∨
      ∃ e ∈ t.db.outbox.rows, e.id = id ∧ e.relayOwner = some owner := by
  by_cases ha : a.relay = some owner
  · cases a with
    | tick later => cases ha
    | insert batch createdAt => cases ha
    | createOrders tx messages => cases ha
    | findDispatchable other =>
      cases ha
      simp only [step] at hstep
      split at hstep <;> cases hstep
      rw [State.withClaims, withRelay_relays_self] at h
      split at h <;> exact absurd h List.not_mem_nil
    | claimRelayBatch other localNow =>
      cases ha
      simp only [step] at hstep
      split at hstep <;> cases hstep
      rw [State.withClaims, withRelay_relays_self] at h
      split at h <;> exact absurd h List.not_mem_nil
    | findClaimedBatch other =>
      cases ha
      simp only [step] at hstep
      split at hstep <;> cases hstep
      rw [withRelay_relays_self] at h
      split at h
      · exact absurd h List.not_mem_nil
      · obtain ⟨e, he, rfl⟩ := List.mem_map.mp h
        obtain ⟨he, howner, -⟩ := mem_findClaimedBatch.mp he
        exact Or.inr ⟨e, he, rfl, howner⟩
    | send other =>
      cases ha
      simp only [step] at hstep
      split at hstep <;> cases hstep
      rename_i hphase
      rw [withRelay_relays_self] at h ⊢
      rw [hphase]
      exact Or.inl ⟨by simpa [RelayPhase.outstanding] using h, rfl⟩
    | await other delivered lastError =>
      cases ha
      simp only [step] at hstep
      split at hstep <;> cases hstep
      rename_i hphase
      rw [withRelay_relays_self] at h ⊢
      rw [hphase]
      have h := (settled_perm config.backoff delivered _).subset h
      exact Or.inl ⟨by simpa [RelayPhase.outstanding] using h, rfl⟩
    | markSentBatch other localNow =>
      cases ha
      simp only [step] at hstep
      split at hstep <;> cases hstep
      rename_i hphase
      rw [withRelay_relays_self] at h ⊢
      rw [hphase]
      exact Or.inl ⟨List.mem_append_right _ h, rfl⟩
    | scheduleRetryBatch other localNow =>
      cases ha
      simp only [step] at hstep
      split at hstep <;> cases hstep
      rename_i leaseUntil backoff ids failed lastError hphase
      rw [withRelay_relays_self] at h ⊢
      rw [hphase]
      have h : id ∈ failedIds failed := h
      exact Or.inl ⟨show id ∈ ids ++ failedIds failed from List.mem_append_right _ h, rfl⟩
    | stop other =>
      cases ha
      cases hstep
      rw [withRelay_relays_self] at h
      exact absurd h List.not_mem_nil
  · rw [(relay_of_step hstep ha).1] at h ⊢
    exact Or.inl ⟨h, rfl⟩

/-- An event a relay has under a running lease is its own, or nobody's. -/
theorem leased_owner (h : PhaseOk s owner (s.relays owner)) {id : ℕ} {leaseUntil : Time}
    (hid : id ∈ (s.relays owner).outstanding)
    (hlease : (s.relays owner).leaseUntil = some leaseUntil) :
    id ∈ s.claims owner ∧ Secured s owner leaseUntil id := by
  cases hphase : s.relays owner with
  | idle =>
    rw [hphase] at hid
    exact absurd hid List.not_mem_nil
  | found ids =>
    rw [hphase] at hid
    exact absurd hid List.not_mem_nil
  | claimed ids lease =>
    rw [hphase] at hid
    exact absurd hid List.not_mem_nil
  | sending lease events pending =>
    rw [hphase] at h hid hlease
    cases hlease
    exact ⟨h.claimed id hid, h.secured id hid⟩
  | settling lease sentIds failed lastError =>
    rw [hphase] at h hid hlease
    cases hlease
    exact ⟨h.claimed id hid, h.secured id hid⟩

theorem ordered_step (h : Ordered s) (hstep : step rejects config s a = some t) : Ordered t := by
  have hphases : ∀ owner, PhaseOk t owner (t.relays owner) := by
    intro owner
    by_cases ha : a.relay = some owner
    · exact phaseOk_own hstep ha (h.phases owner)
    · rw [(relay_of_step hstep ha).1]
      exact phaseOk_others hstep ha (h.phases owner)
  -- a relay that reads the event back owns its row, so the other one no longer does
  have hread : ∀ {i j : Text} {id : ℕ} {leaseUntil : Time}, i ≠ j →
      id ∈ (t.relays i).outstanding → (t.relays i).leaseUntil = some leaseUntil →
      (∃ e ∈ t.db.outbox.rows, e.id = id ∧ e.relayOwner = some j) → leaseUntil < t.now := by
    rintro i j id leaseUntil hne hid hlease ⟨e, he, hide, howner⟩
    obtain ⟨r, hr, hidr, hcase⟩ := (leased_owner (hphases i) hid hlease).2
    have heq := row_unique t.db hr he (hidr.trans hide.symm)
    subst heq
    rcases hcase with hexp | ⟨hown, -⟩ | ⟨hfree, -⟩
    · exact hexp
    · exact absurd (Option.some.inj (hown.symm.trans howner)) hne
    · exact absurd (hfree.symm.trans howner) (by simp)
  refine ⟨hphases, fun i j id leaseᵢ leaseⱼ hne hi hj hli hlj => ?_⟩
  rcases outstanding_of_step hstep hi with ⟨hi', hl⟩ | hnew
  · rcases outstanding_of_step hstep hj with ⟨hj', hl'⟩ | hnew
    · have hnow := now_of_step hstep
      exact (h.apart i j id leaseᵢ leaseⱼ hne hi' hj' (hl ▸ hli) (hl' ▸ hlj)).imp
        (fun hlt => Int.lt_of_lt_of_le hlt hnow) (fun hlt => Int.lt_of_lt_of_le hlt hnow)
    · exact Or.inl (hread hne hi hli hnew)
  · exact Or.inr (hread (Ne.symm hne) hj hlj hnew)

/-! ## Rows a relay has lost -/

/-- The row is not the relay's, or it is completed. -/
def NotOwned (s : State) (owner : Text) (id : ℕ) : Prop :=
  ∃ e ∈ s.db.outbox.rows, e.id = id ∧ (e.relayOwner ≠ some owner ∨ e.status = .completed)

/-- Such a row a step leaves untouched, or to another relay, unless the relay claims it. -/
theorem notOwned_step {id : ℕ} (hclaim : ∀ localNow, a ≠ .claimRelayBatch owner localNow)
    (h : NotOwned s owner id) (hstep : step rejects config s a = some t) : NotOwned t owner id := by
  obtain ⟨e, he, rfl, hcase⟩ := h
  obtain ⟨e', he', hid, hrw⟩ := (step_rewrites hstep).forward e he
  refine ⟨e', he', hid, ?_⟩
  by_cases howner : e'.relayOwner = some owner
  · have hold := owned_of_step hstep hclaim he' howner
    have heq := row_unique s.db hold he hid
    subst heq
    exact hcase
  · exact Or.inl howner

theorem notOwned_run {id : ℕ} {bs : List Action}
    (hclaim : ∀ b ∈ bs, ∀ localNow, b ≠ .claimRelayBatch owner localNow)
    (h : NotOwned s owner id) (hrun : run (step rejects config) s bs = some t) :
    NotOwned t owner id :=
  run_invariant (P := fun _ b => ∀ localNow, b ≠ .claimRelayBatch owner localNow)
    (fun _ _ _ hb h hstep => notOwned_step hb h hstep)
    (along_of_forall (fun b hb _ => hclaim b hb) s) h hrun

/-- The two statements a relay settles its events with. -/
def Action.settles (a : Action) (owner : Text) : Prop :=
  ∃ localNow, a = .markSentBatch owner localNow ∨ a = .scheduleRetryBatch owner localNow

/-- **A late update does not match** a row the relay has lost. -/
theorem kept_of_notOwned {id : ℕ} (ha : a.settles owner) (h : NotOwned s owner id)
    (hstep : step rejects config s a = some t) :
    ∃ e ∈ s.db.outbox.rows, e.id = id ∧ e ∈ t.db.outbox.rows := by
  obtain ⟨e, he, rfl, hcase⟩ := h
  obtain ⟨e', he', -, hrw⟩ := (step_rewrites hstep).forward e he
  refine ⟨e, he, rfl, ?_⟩
  have hrelay : a.relay = some owner := by
    obtain ⟨localNow, rfl | rfl⟩ := ha <;> rfl
  cases hrw with
  | kept same => rwa [← same]
  | claimed other localNow action guard owned =>
    subst action
    obtain ⟨_, ha | ha⟩ := ha <;> cases ha
  | released other action owned guard free =>
    rw [hrelay] at action
    cases action
    rcases hcase with hne | hstatus
    · exact absurd owned hne
    · exact absurd (backlog_iff.mp guard) (by simp [hstatus])
  | completed action guard free status => exact absurd (hrelay.symm.trans action) (by simp)

/-! ## The laws -/

/-- The lease of the relay's round has not expired. -/
def Unexpired (s : State) (owner : Text) : Prop :=
  ∃ leaseUntil, (s.relays owner).leaseUntil = some leaseUntil ∧ s.now ≤ leaseUntil

/-- What relays can rely on. -/
structure OwnershipLaws (rejects : Reservation → Bool) (config : RelayConfig) (s : State) :
    Prop where
  /-- what a relay dispatches it has claimed in this round -/
  claimed : ∀ owner, ∀ id ∈ (s.relays owner).outstanding, id ∈ s.claims owner
  /-- no two relays dispatch an event under leases that run -/
  single : ∀ {owner owner' id}, id ∈ (s.relays owner).outstanding →
    id ∈ (s.relays owner').outstanding → Unexpired s owner → Unexpired s owner' → owner = owner'
  /-- once a row is not the relay's or is completed, the updates of its round leave it -/
  stale : ∀ {owner e bs a t u}, e ∈ s.db.outbox.rows →
    e.relayOwner ≠ some owner ∨ e.status = .completed →
    run (step rejects config) s bs = some t →
    (∀ b ∈ bs, ∀ localNow, b ≠ .claimRelayBatch owner localNow) → a.settles owner →
    step rejects config t a = some u →
    ∃ e' ∈ t.db.outbox.rows, e'.id = e.id ∧ e' ∈ u.db.outbox.rows

/-- A relay that is dispatching has a lease. -/
theorem exists_lease {phase : RelayPhase} {id : ℕ} (h : id ∈ phase.outstanding) :
    ∃ leaseUntil, phase.leaseUntil = some leaseUntil := by
  cases phase with
  | sending leaseUntil events pending => exact ⟨leaseUntil, rfl⟩
  | settling leaseUntil sentIds failed lastError => exact ⟨leaseUntil, rfl⟩
  | _ => exact absurd h List.not_mem_nil

/-- **Lease ownership of outbox rows**, in every state any number of relays can reach beside the
consumer. -/
theorem lease_ownership (rejects : Reservation → Bool) (config : RelayConfig) {s₀ s : State}
    {as : List Action} (hstart : Start s₀) (hrun : run (step rejects config) s₀ as = some s) :
    OwnershipLaws rejects config s := by
  have hs : Ordered s := run_invariant' (fun _ _ _ h hstep => ordered_step h hstep)
    hstart.ordered hrun
  refine ⟨fun owner id hid => ?_, fun {i j id} hi hj hli hlj => ?_, ?_⟩
  · obtain ⟨leaseUntil, hlease⟩ := exists_lease hid
    exact (leased_owner (hs.phases owner) hid hlease).1
  · by_contra hne
    obtain ⟨leaseᵢ, hli, hrunsᵢ⟩ := hli
    obtain ⟨leaseⱼ, hlj, hrunsⱼ⟩ := hlj
    rcases hs.apart i j id leaseᵢ leaseⱼ hne hi hj hli hlj with hlt | hlt
    · exact absurd hlt (Int.not_lt.mpr hrunsᵢ)
    · exact absurd hlt (Int.not_lt.mpr hrunsⱼ)
  · intro owner e bs a t u he hcase hbs hclaim ha hstep
    exact kept_of_notOwned ha (notOwned_run hclaim ⟨e, he, rfl, hcase⟩ hbs) hstep

/-- One order in the outbox, and no relay at work. -/
def oneOrder : State where
  db := (insertIgnoreBatch [SeckillOrderOutboxEvent.pending 0 ⟨1, 7, 5, false⟩] Db.empty).2
  now := 0
  relays _ := .idle
  claims _ := []

/-- `application.yaml`, with a lease of 30 seconds. -/
def relayConfig : RelayConfig := ⟨100, 30, 60, ⟨1, 300⟩⟩

/-- Both relays read the candidate; the first claims it and stalls past its lease, the second reads
it again, takes it over and sends it. -/
def takenOver : List Action :=
  [.findDispatchable ['a'], .findDispatchable ['b'], .claimRelayBatch ['a'] 0,
    .claimRelayBatch ['b'] 0, .findClaimedBatch ['a'], .send ['a'], .tick 31,
    .findDispatchable ['b'], .claimRelayBatch ['b'] 31, .findClaimedBatch ['b'], .send ['b'],
    .await ['a'] (fun _ => true) []]

theorem lease_ownership_taken_over :
    ∃ s, run (step (fun _ => false) relayConfig) oneOrder takenOver = some s ∧
      OwnershipLaws (fun _ => false) relayConfig s := by
  obtain ⟨s, hs⟩ := Option.isSome_iff_exists.mp
    (show (run (step (fun _ => false) relayConfig) oneOrder takenOver).isSome = true by
      decide +kernel)
  exact ⟨s, hs, lease_ownership (fun _ => false) relayConfig (fun _ => rfl) hs⟩

end Hmdp.Outbox.Lease
