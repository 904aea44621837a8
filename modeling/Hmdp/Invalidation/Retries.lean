import Hmdp.Lib.Machine
import Hmdp.Model.InvalidationOutbox
import Mathlib.Data.Set.Card

/-!
# Invalidation events: sends, retries and the two ends

Any number of relays work on one outbox table, each through the events it has read; the relay lock
is not relied on. One step is one statement of one relay, and every send and every update may fail.

* `acks` are the messages Kafka has acknowledged, `failures` counts the dispatches of a row that
  ended in `handleFailure`: the send failed or timed out, or `markSent` threw.
* `Inv.events`: the counter a relay has read is at most the number of failed dispatches, so the
  row's own counter stays at most that number whoever increments it.
-/

namespace Hmdp.Invalidation

open Hmdp.Lib Hmdp.Model

variable {Relay : Type} [DecidableEq Relay]

/-- The outbox table and the relays at work on it. -/
structure State (Relay : Type) where
  table : InvalidationTable
  relays : Relay → InvalidationRelayPhase
  /-- ghost -/
  acks : List InvalidationMessage
  /-- ghost: by row id -/
  failures : ℕ → ℕ

/-- The steps: an insert of a publisher, and the statements of a relay's round. -/
inductive Action (Relay : Type) where
  /-- a publisher inserts an event -/
  | insert (defaultReason : Text) (id : ℕ) (eventId : Text) (targetId : Long)
    (reason : Option Text) (now : Time)
  | findDispatchable (relay : Relay) (now : Time)
  /-- the next event is sent, acknowledged in time or not -/
  | send (relay : Relay) (failure : Option JavaException)
  | markSent (relay : Relay) (reply : Reply) (exception : JavaException) (now : Time)
  | handleFailure (relay : Relay) (reply : Reply) (localNow now : Time)

/-- The table after an update that ends so. -/
def afterUpdate (reply : Reply) (old new : InvalidationTable) : InvalidationTable :=
  match reply with
  | .returns => new
  | .throws applied => if applied then new else old

/-- A relay goes on to the next phase. -/
def State.moveTo (s : State Relay) (relay : Relay) (phase : InvalidationRelayPhase) :
    State Relay :=
  { s with relays := Function.update s.relays relay phase }

/-- `dispatch` has caught an exception. -/
def State.catch (s : State Relay) (relay : Relay) (e : InvalidationEvent)
    (exception : JavaException) (events : List InvalidationEvent) : State Relay :=
  { s.moveTo relay (.failed e exception events) with
    failures := Function.update s.failures e.id (s.failures e.id + 1) }

/-- One step; `none` where the relay is not where the action needs it. -/
def step (cfg : InvalidationRelayConfig) (s : State Relay) : Action Relay → Option (State Relay)
  | .insert defaultReason id eventId targetId reason now =>
    if ∀ r ∈ s.table.rows, r.id ≠ id then
      some { s with table := (s.table.insertIgnore
        [InvalidationRow.pendingEvent defaultReason id eventId targetId reason now]).2 }
    else none
  | .findDispatchable relay now =>
    match s.relays relay with
    | .idle =>
      match s.table.findDispatchable cfg.batchSize now with
      | some events => some (s.moveTo relay (.dispatching events))
      | none => some s
    | _ => none
  | .send relay failure =>
    match s.relays relay with
    | .dispatching [] => some (s.moveTo relay .idle)
    | .dispatching (e :: events) =>
      match failure with
      | none => some { s.moveTo relay (.acknowledged e events) with acks := e.message :: s.acks }
      | some exception => some (s.catch relay e exception events)
    | _ => none
  | .markSent relay reply exception now =>
    match s.relays relay with
    | .acknowledged e events =>
      let marked := { s with table := afterUpdate reply s.table (s.table.markSent e.id now).2 }
      match reply with
      | .returns => some (marked.moveTo relay (.dispatching events))
      | .throws _ => some (marked.catch relay e exception events)
    | _ => none
  | .handleFailure relay reply localNow now =>
    match s.relays relay with
    | .failed e exception events =>
      let handled := s.table.handleFailure cfg e exception localNow now
      let handled := { s with table := afterUpdate reply s.table handled }
      match reply with
      | .returns => some (handled.moveTo relay (.dispatching events))
      | .throws _ => some (handled.moveTo relay .idle)
    | _ => none

/-- An empty table and idle relays. -/
def State.start : State Relay := ⟨Table.empty, fun _ => .idle, [], fun _ => 0⟩

/-! ## The invariant -/

/-- The relays whose failed dispatch of the row is not counted in it yet. -/
def State.failing (s : State Relay) (id : ℕ) : Set Relay :=
  { relay | (s.relays relay).failedId = some id }

/-- A row and what has been done for it. -/
structure RowOk (cfg : InvalidationRelayConfig) (s : State Relay) (r : InvalidationRow) :
    Prop where
  acked : r.status = .sent → r.message ∈ s.acks
  exhausted : r.status = .failed → cfg.maxAutoRetries.toInt ≤ s.failures r.id
  counted : r.retryCount + (s.failing r.id).ncard ≤ s.failures r.id

/-- An event a relay holds: it was read from a row that is still there, at most `failures` failed
dispatches ago less those of this relay's own. -/
structure EventOk (s : State Relay) (own : ℕ) (e : InvalidationEvent) : Prop where
  row : ∃ r ∈ s.table.rows, r.id = e.id ∧ r.message = e.message
  stale : e.currentRetryCount.toInt + own ≤ s.failures e.id

/-- What a relay holds in its phase agrees with the table and the broker. -/
def PhaseOk (s : State Relay) : InvalidationRelayPhase → Prop
  | .idle => True
  | .dispatching events => ∀ e ∈ events, EventOk s 0 e
  | .acknowledged e events => (EventOk s 0 e ∧ e.message ∈ s.acks) ∧ ∀ e ∈ events, EventOk s 0 e
  | .failed e _ events => EventOk s 1 e ∧ ∀ e ∈ events, EventOk s 0 e

/-- **The invariant** over rows and relays. -/
structure Inv (cfg : InvalidationRelayConfig) (s : State Relay) : Prop where
  finite : ∀ id, (s.failing id).Finite
  rows : ∀ r ∈ s.table.rows, RowOk cfg s r
  events : ∀ relay, PhaseOk s (s.relays relay)

/-- What a step may do to the rows: keep them with what identifies them, and add some. -/
def Keeps (s t : State Relay) : Prop :=
  (∀ r ∈ s.table.rows, ∃ r' ∈ t.table.rows, r'.id = r.id ∧ r'.message = r.message) ∧
    s.acks ⊆ t.acks ∧ ∀ id, s.failures id ≤ t.failures id

variable {cfg : InvalidationRelayConfig} {s t : State Relay} {a : Action Relay}

omit [DecidableEq Relay] in
theorem EventOk.mono (hk : Keeps s t) {own : ℕ} {e : InvalidationEvent} (h : EventOk s own e) :
    EventOk t own e := by
  obtain ⟨r, hr, hid, hmessage⟩ := h.row
  obtain ⟨r', hr', hid', hmessage'⟩ := hk.1 r hr
  refine ⟨⟨r', hr', hid'.trans hid, hmessage'.trans hmessage⟩, ?_⟩
  exact Int.le_trans h.stale (Int.ofNat_le.mpr (hk.2.2 e.id))

omit [DecidableEq Relay] in
theorem PhaseOk.mono (hk : Keeps s t) {phase : InvalidationRelayPhase} (h : PhaseOk s phase) :
    PhaseOk t phase := by
  cases phase with
  | idle => trivial
  | dispatching events => exact fun e he => (h e he).mono hk
  | acknowledged e events =>
    exact ⟨⟨h.1.1.mono hk, hk.2.1 h.1.2⟩, fun e he => (h.2 e he).mono hk⟩
  | failed e exception events => exact ⟨h.1.mono hk, fun e he => (h.2 e he).mono hk⟩

/-! ## What a relay's move does to `failing` -/

variable {relay : Relay} {phase : InvalidationRelayPhase} {e : InvalidationEvent}
  {exception : JavaException} {events : List InvalidationEvent}

/-- A relay that is not about to count a failure, before and after. -/
theorem failing_moveTo (hold : (s.relays relay).failedId = none) (hnew : phase.failedId = none)
    (id : ℕ) : (s.moveTo relay phase).failing id = s.failing id := by
  ext other
  by_cases h : other = relay
  · subst h
    simp [State.failing, State.moveTo, hold, hnew]
  · simp [State.failing, State.moveTo, h]

/-- A dispatch has failed. -/
theorem failing_catch (id : ℕ) (hold : (s.relays relay).failedId = none) :
    (s.catch relay e exception events).failing id =
      if id = e.id then insert relay (s.failing id) else s.failing id := by
  ext other
  by_cases h : other = relay
  · subst h
    by_cases hid : id = e.id
    · simp [State.failing, State.catch, State.moveTo, hid]
    · simp [State.failing, State.catch, State.moveTo, hold, hid, Ne.symm hid]
  · by_cases hid : id = e.id <;> simp [State.failing, State.catch, State.moveTo, h, hid]

/-- A failed dispatch has been counted. -/
theorem failing_counted (id : ℕ) (hold : s.relays relay = .failed e exception events)
    (hnew : phase.failedId = none) :
    (s.moveTo relay phase).failing id =
      if id = e.id then s.failing id \ {relay} else s.failing id := by
  ext other
  by_cases h : other = relay
  · subst h
    by_cases hid : id = e.id
    · simp [State.failing, State.moveTo, hnew, hid]
    · simp [State.failing, State.moveTo, hnew, hold, hid, Ne.symm hid]
  · by_cases hid : id = e.id <;> simp [State.failing, State.moveTo, h, hid]

/-! ## Steps -/

theorem keeps_moveTo : Keeps s (s.moveTo relay phase) :=
  ⟨fun r hr => ⟨r, hr, rfl, rfl⟩, List.Subset.refl _, fun _ => Nat.le_refl _⟩

/-- The phases of the other relays survive a step, that of the relay itself is new. -/
theorem phases_of_keeps (hi : Inv cfg s) (hk : Keeps s t)
    (hrelays : t.relays = Function.update s.relays relay phase) (hphase : PhaseOk t phase) :
    ∀ other, PhaseOk t (t.relays other) := by
  intro other
  rw [hrelays]
  by_cases h : other = relay
  · subst h
    rwa [Function.update_self]
  · rw [Function.update_of_ne h]
    exact (hi.events other).mono hk

theorem inv_moveTo (hi : Inv cfg s) (hold : (s.relays relay).failedId = none)
    (hnew : phase.failedId = none) (hphase : PhaseOk s phase) : Inv cfg (s.moveTo relay phase) where
  finite id := by
    rw [failing_moveTo hold hnew]
    exact hi.finite id
  rows r hr := by
    obtain ⟨hacked, hexhausted, hcounted⟩ := hi.rows r hr
    refine ⟨hacked, hexhausted, ?_⟩
    rw [failing_moveTo hold hnew]
    exact hcounted
  events := phases_of_keeps hi keeps_moveTo rfl (hphase.mono keeps_moveTo)

theorem keeps_catch : Keeps s (s.catch relay e exception events) := by
  refine ⟨fun r hr => ⟨r, hr, rfl, rfl⟩, List.Subset.refl _, fun id => ?_⟩
  by_cases h : id = e.id
  · subst h
    simp [State.catch]
  · simp [State.catch, h]

theorem inv_catch (hi : Inv cfg s) (hold : (s.relays relay).failedId = none)
    (he : EventOk s 0 e) (hevents : ∀ e ∈ events, EventOk s 0 e) :
    Inv cfg (s.catch relay e exception events) where
  finite id := by
    rw [failing_catch id hold]
    split
    · exact (hi.finite id).insert relay
    · exact hi.finite id
  rows r hr := by
    obtain ⟨hacked, hexhausted, hcounted⟩ := hi.rows r hr
    refine ⟨hacked, fun hfailed => ?_, ?_⟩
    · exact Int.le_trans (hexhausted hfailed) (Int.ofNat_le.mpr (keeps_catch.2.2 r.id))
    · rw [failing_catch r.id hold]
      by_cases hid : r.id = e.id
      · have hfresh : relay ∉ s.failing r.id := by simp [State.failing, hold]
        rw [if_pos hid, Set.ncard_insert_of_notMem hfresh (hi.finite r.id)]
        simp only [State.catch, hid, Function.update_self]
        rw [hid] at hcounted
        omega
      · rw [if_neg hid]
        simpa [State.catch, hid] using hcounted
  events := by
    refine phases_of_keeps hi keeps_catch rfl
      ⟨⟨?_, ?_⟩, fun other hother => (hevents other hother).mono keeps_catch⟩
    · exact (he.mono keeps_catch).row
    · have := he.stale
      simp only [State.catch, Function.update_self]
      push_cast
      omega

omit [DecidableEq Relay] in
/-- An update that keeps what identifies a row. -/
theorem keeps_update {id : ℕ} {f : InvalidationRow → InvalidationRow}
    {hf : ∀ r, (f r).id = r.id} (hmessage : ∀ r, (f r).message = r.message) :
    Keeps s { s with table := (s.table.updatePending id f hf).2 } := by
  refine ⟨fun r hr => ?_, List.Subset.refl _, fun _ => Nat.le_refl _⟩
  have hmem := fun r => @InvalidationTable.mem_updatePending s.table id f hf r
  by_cases h : r.id = id ∧ r.status = .pending
  · exact ⟨f r, (hmem (f r)).mpr (.inr ⟨r, hr, h, rfl⟩), hf r, hmessage r⟩
  · exact ⟨r, (hmem r).mpr (.inl ⟨hr, h⟩), rfl, rfl⟩

omit [DecidableEq Relay] in
theorem inv_acknowledge (hi : Inv cfg s) (m : InvalidationMessage) :
    Inv cfg { s with acks := m :: s.acks } where
  finite := hi.finite
  rows r hr := by
    obtain ⟨hacked, hexhausted, hcounted⟩ := hi.rows r hr
    exact ⟨fun hsent => List.mem_cons_of_mem m (hacked hsent), hexhausted, hcounted⟩
  events other := by
    have hk : Keeps s { s with acks := m :: s.acks } :=
      ⟨fun r hr => ⟨r, hr, rfl, rfl⟩, List.subset_cons_self m s.acks, fun _ => Nat.le_refl _⟩
    exact PhaseOk.mono hk (hi.events other)

omit [DecidableEq Relay] in
/-- The message of an event is that of its row. -/
theorem EventOk.message_eq {own : ℕ} (he : EventOk s own e) {r : InvalidationRow}
    (hr : r ∈ s.table.rows) (hid : r.id = e.id) : r.message = e.message := by
  obtain ⟨r', hr', hid', hmessage⟩ := he.row
  rw [s.table.eq_of_id hr hr' (hid.trans hid'.symm), hmessage]

omit [DecidableEq Relay] in
theorem inv_markSent (hi : Inv cfg s) {own : ℕ} (he : EventOk s own e) (hack : e.message ∈ s.acks)
    (now : Time) : Inv cfg { s with table := (s.table.markSent e.id now).2 } where
  finite := hi.finite
  rows r hr := by
    rcases (InvalidationTable.mem_updatePending (f := .sent now) fun _ => rfl).mp hr with
      ⟨hold, -⟩ | ⟨old, hold, ⟨hid, -⟩, rfl⟩
    · obtain ⟨hacked, hexhausted, hcounted⟩ := hi.rows r hold
      exact ⟨hacked, hexhausted, hcounted⟩
    · have hmessage : old.message ∈ s.acks := he.message_eq hold hid ▸ hack
      refine ⟨fun _ => hmessage, fun h => ?_, (hi.rows old hold).counted⟩
      cases h
  events other := by
    have hk : Keeps s { s with table := (s.table.markSent e.id now).2 } :=
      keeps_update fun _ => rfl
    exact PhaseOk.mono hk (hi.events other)

/-- A failed dispatch is settled: its row may be counted up, and fail if the event was
exhausted. -/
theorem inv_settle (hi : Inv cfg s) (hmax : 1 ≤ cfg.maxAutoRetries)
    (hold : s.relays relay = .failed e exception events) (hnew : phase.failedId = none)
    {table : InvalidationTable} (hk : Keeps s { s with table })
    (htable : ∀ r ∈ table.rows, r ∈ s.table.rows ∨ ∃ old ∈ s.table.rows, old.id = e.id ∧
      r.id = old.id ∧ r.retryCount = old.retryCount + 1 ∧ r.status ≠ .sent ∧
        (r.status = .failed → e.exhausted cfg = true))
    (hphase : PhaseOk s phase) : Inv cfg (State.moveTo { s with table } relay phase) where
  finite id := by
    have hcounted := failing_counted id hold hnew
    have hsame : (State.moveTo { s with table } relay phase).failing id =
        (s.moveTo relay phase).failing id := rfl
    rw [hsame, hcounted]
    split
    · exact (hi.finite id).sdiff
    · exact hi.finite id
  rows r hr := by
    have hfailing : (State.moveTo { s with table } relay phase).failing r.id =
        if r.id = e.id then s.failing r.id \ {relay} else s.failing r.id :=
      failing_counted r.id hold hnew
    rcases htable r hr with hin | ⟨old, hin, hid, hsame, hcount, hsent, hfail⟩
    · obtain ⟨hacked, hexhausted, hcounted⟩ := hi.rows r hin
      refine ⟨hacked, hexhausted, ?_⟩
      rw [hfailing]
      split
      · have hle := Set.ncard_le_ncard (Set.sdiff_subset (s := s.failing r.id) (t := {relay}))
          (hi.finite r.id)
        have hbound : r.retryCount + (s.failing r.id).ncard ≤ s.failures r.id := hcounted
        exact Nat.le_trans (Nat.add_le_add_left hle _) hbound
      · exact hcounted
    · have hstale := (hold ▸ hi.events relay : PhaseOk s (.failed e exception events)).1.stale
      have hre : r.id = e.id := hsame.trans hid
      refine ⟨fun h => absurd h hsent, fun h => ?_, ?_⟩
      · have hlast := InvalidationEvent.exhausted_toInt hmax (hfail h)
        rw [hre]
        exact Int.le_trans hlast hstale
      · have hmem : relay ∈ s.failing r.id := by simp [State.failing, hold, hre]
        have hcounted : old.retryCount + (s.failing r.id).ncard ≤ s.failures r.id :=
          hsame ▸ (hi.rows old hin).counted
        rw [hfailing, if_pos hre, hcount]
        have hdiff := Set.ncard_sdiff_singleton_add_one hmem (hi.finite r.id)
        show old.retryCount + 1 + (s.failing r.id \ {relay}).ncard ≤ s.failures r.id
        omega
  events := by
    have hmoved : Keeps s (State.moveTo { s with table } relay phase) := ⟨hk.1, hk.2.1, hk.2.2⟩
    exact phases_of_keeps hi hmoved rfl (hphase.mono hmoved)

omit [DecidableEq Relay] in
/-- No relay holds an event of an id without a row. -/
theorem failing_of_fresh (hi : Inv cfg s) {id : ℕ} (hfresh : ∀ r ∈ s.table.rows, r.id ≠ id) :
    s.failing id = ∅ := by
  rw [Set.eq_empty_iff_forall_notMem]
  intro relay hrelay
  have hphase := hi.events relay
  have hrelay : (s.relays relay).failedId = some id := hrelay
  cases h : s.relays relay with
  | failed e exception events =>
    rw [h] at hphase hrelay
    obtain ⟨r, hr, hid, -⟩ := hphase.1.row
    exact hfresh r hr (hid.trans (Option.some.inj hrelay))
  | idle => rw [h] at hrelay; cases hrelay
  | dispatching events => rw [h] at hrelay; cases hrelay
  | acknowledged e events => rw [h] at hrelay; cases hrelay

omit [DecidableEq Relay] in
theorem inv_insert (hi : Inv cfg s) {row : InvalidationRow} (hpending : row.status = .pending)
    (hzero : row.retryCount = 0) (hfresh : ∀ r ∈ s.table.rows, r.id ≠ row.id) :
    Inv cfg { s with table := (s.table.insertIgnore [row]).2 } where
  finite := hi.finite
  rows r hr := by
    rcases Table.mem_insertIgnore.mp hr with hold | hnew
    · obtain ⟨hacked, hexhausted, hcounted⟩ := hi.rows r hold
      exact ⟨hacked, hexhausted, hcounted⟩
    · obtain rfl := List.mem_singleton.mp (mem_rows_of_mem_newRows hnew)
      refine ⟨fun h => ?_, fun h => ?_, ?_⟩
      · cases hpending.symm.trans h
      · cases hpending.symm.trans h
      · have hnone : State.failing { s with table := (s.table.insertIgnore [r]).2 } r.id = ∅ :=
          failing_of_fresh hi hfresh
        rw [hzero, hnone, Set.ncard_empty]
        exact Nat.zero_le _
  events other := by
    have hk : Keeps s { s with table := (s.table.insertIgnore [row]).2 } :=
      ⟨fun r hr => ⟨r, Table.mem_insertIgnore.mpr (.inl hr), rfl, rfl⟩, List.Subset.refl _,
        fun _ => Nat.le_refl _⟩
    exact PhaseOk.mono hk (hi.events other)

omit [DecidableEq Relay] in
/-- The counter of an event that is read now is at most the number of failed dispatches. -/
theorem eventOk_of_read (hi : Inv cfg s) {r : InvalidationRow} (hr : r ∈ s.table.rows)
    (hread : r.toEvent = some e) : EventOk s 0 e := by
  have hcount := InvalidationRow.currentRetryCount_toEvent hread
  obtain ⟨-, rfl⟩ := InvalidationRow.toEvent_eq_some.mp hread
  refine ⟨⟨r, hr, rfl, rfl⟩, ?_⟩
  rw [hcount]
  have hbound := Nat.le_trans (Nat.le_add_right _ _) (hi.rows r hr).counted
  simpa using Int.ofNat_le.mpr hbound

/-- **Every step keeps the invariant.** -/
theorem inv_step (hmax : 1 ≤ cfg.maxAutoRetries) (hi : Inv cfg s) (hstep : step cfg s a = some t) :
    Inv cfg t := by
  cases a with
  | insert defaultReason id eventId targetId reason now =>
    simp only [step] at hstep
    split at hstep <;> cases hstep
    rename_i hfresh
    exact inv_insert hi rfl rfl hfresh
  | findDispatchable relay now =>
    simp only [step] at hstep
    split at hstep
    · rename_i hidle
      split at hstep
      · rename_i events hfound
        cases hstep
        refine inv_moveTo hi (by rw [hidle]; rfl) rfl fun e he => ?_
        obtain ⟨r, hr, hread⟩ := InvalidationTable.mem_findDispatchable hfound he
        exact eventOk_of_read hi hr hread
      · cases hstep
        exact hi
    · cases hstep
  | send relay failure =>
    simp only [step] at hstep
    split at hstep
    · rename_i hphase
      cases hstep
      exact inv_moveTo hi (by rw [hphase]; rfl) rfl trivial
    · rename_i e events hphase
      have hok : PhaseOk s (.dispatching (e :: events)) := hphase ▸ hi.events relay
      have he := hok e List.mem_cons_self
      have hevents := fun e' he' => hok e' (List.mem_cons_of_mem e he')
      split at hstep <;> cases hstep
      · have hacked := inv_acknowledge hi e.message
        have hk : Keeps s { s with acks := e.message :: s.acks } :=
          ⟨fun r hr => ⟨r, hr, rfl, rfl⟩, List.subset_cons_self _ _, fun _ => Nat.le_refl _⟩
        have hold :
            (State.relays { s with acks := e.message :: s.acks } relay).failedId = none := by
          rw [hphase]
          rfl
        exact inv_moveTo hacked hold rfl
          ⟨⟨he.mono hk, List.mem_cons_self⟩, fun e' he' => (hevents e' he').mono hk⟩
      · exact inv_catch hi (by rw [hphase]; rfl) he hevents
    · cases hstep
  | markSent relay reply exception now =>
    simp only [step] at hstep
    split at hstep
    · rename_i e events hphase
      have hok : PhaseOk s (.acknowledged e events) := hphase ▸ hi.events relay
      obtain ⟨⟨he, hack⟩, hevents⟩ := hok
      have hold : (s.relays relay).failedId = none := by rw [hphase]; rfl
      have hk : Keeps s { s with table := (s.table.markSent e.id now).2 } :=
        keeps_update fun _ => rfl
      have hmarked := inv_markSent hi he hack now
      have hevents' := fun e' he' => (hevents e' he').mono hk
      split at hstep <;> cases hstep
      · exact inv_moveTo hmarked hold rfl hevents'
      · rename_i applied
        cases applied with
        | true => exact inv_catch hmarked hold (he.mono hk) hevents'
        | false => exact inv_catch hi hold he hevents
    · cases hstep
  | handleFailure relay reply localNow now =>
    simp only [step] at hstep
    split at hstep
    · rename_i e exception events hphase
      have hok : PhaseOk s (.failed e exception events) := hphase ▸ hi.events relay
      obtain ⟨f, hf, htable, hrow⟩ := s.table.handleFailure_eq cfg e exception localNow now
      have hk : Keeps s { s with table := s.table.handleFailure cfg e exception localNow now } := by
        rw [htable]
        exact keeps_update fun r => (hrow r).1
      have hsettled : ∀ r ∈ (s.table.handleFailure cfg e exception localNow now).rows,
          r ∈ s.table.rows ∨ ∃ old ∈ s.table.rows, old.id = e.id ∧ r.id = old.id ∧
            r.retryCount = old.retryCount + 1 ∧ r.status ≠ .sent ∧
              (r.status = .failed → e.exhausted cfg = true) := by
        intro r hr
        rw [htable] at hr
        rcases (InvalidationTable.mem_updatePending hf).mp hr with
          ⟨hold, -⟩ | ⟨old, hold, hsel, rfl⟩
        · exact .inl hold
        · obtain ⟨-, hcount, hstatus⟩ := hrow old
          refine .inr ⟨old, hold, hsel.1, hf old, hcount, fun h => ?_, fun h => ?_⟩
          · rcases hstatus with hsame | ⟨hfailed, -⟩
            · cases hsel.2.symm.trans (hsame.symm.trans h)
            · cases hfailed.symm.trans h
          · rcases hstatus with hsame | ⟨-, hlast⟩
            · cases hsel.2.symm.trans (hsame.symm.trans h)
            · exact hlast
      split at hstep <;> cases hstep
      · exact inv_settle hi hmax hphase rfl hk hsettled hok.2
      · rename_i applied
        cases applied with
        | true => exact inv_settle hi hmax hphase rfl hk hsettled trivial
        | false =>
          have hsame : Keeps s { s with table := s.table } :=
            ⟨fun r hr => ⟨r, hr, rfl, rfl⟩, List.Subset.refl _, fun _ => Nat.le_refl _⟩
          exact inv_settle hi hmax hphase rfl hsame (fun r hr => .inl hr) trivial
    · cases hstep

/-- A row that is not pending is not touched by an update. -/
theorem settled_update {table : InvalidationTable} {r : InvalidationRow} (hr : r ∈ table.rows)
    (hstatus : r.status ≠ .pending) {id : ℕ} {f : InvalidationRow → InvalidationRow}
    {hf : ∀ r, (f r).id = r.id} (reply : Reply) :
    r ∈ (afterUpdate reply table (table.updatePending id f hf).2).rows := by
  have hupdated : r ∈ (table.updatePending id f hf).2.rows :=
    (InvalidationTable.mem_updatePending hf).mpr (.inl ⟨hr, fun h => hstatus h.2⟩)
  cases reply with
  | returns => exact hupdated
  | throws applied =>
    cases applied with
    | true => exact hupdated
    | false => exact hr

/-- **A row that has left `PENDING` stays as it is.** -/
theorem settled_step (hstep : step cfg s a = some t) {r : InvalidationRow}
    (hr : r ∈ s.table.rows) (hstatus : r.status ≠ .pending) : r ∈ t.table.rows := by
  cases a with
  | insert defaultReason id eventId targetId reason now =>
    simp only [step] at hstep
    split at hstep <;> cases hstep
    exact Table.mem_insertIgnore.mpr (.inl hr)
  | findDispatchable relay now =>
    simp only [step] at hstep
    split at hstep
    · split at hstep <;> cases hstep <;> exact hr
    · cases hstep
  | send relay failure =>
    simp only [step] at hstep
    split at hstep
    · cases hstep
      exact hr
    · split at hstep <;> cases hstep <;> exact hr
    · cases hstep
  | markSent relay reply exception now =>
    simp only [step] at hstep
    split at hstep
    · rename_i e events hphase
      have hkept : r ∈ (afterUpdate reply s.table (s.table.markSent e.id now).2).rows :=
        settled_update hr hstatus reply
      split at hstep <;> cases hstep <;> exact hkept
    · cases hstep
  | handleFailure relay reply localNow now =>
    simp only [step] at hstep
    split at hstep
    · rename_i e exception events hphase
      obtain ⟨f, hf, htable, -⟩ := s.table.handleFailure_eq cfg e exception localNow now
      have hkept : r ∈ (afterUpdate reply s.table
          (s.table.handleFailure cfg e exception localNow now)).rows := by
        rw [htable]
        exact settled_update hr hstatus reply
      split at hstep <;> cases hstep <;> exact hkept
    · cases hstep

/-! ## Runs -/

omit [DecidableEq Relay] in
theorem inv_start (cfg : InvalidationRelayConfig) : Inv cfg (State.start : State Relay) where
  finite id := by
    have hnone : (State.start : State Relay).failing id = ∅ :=
      Set.eq_empty_iff_forall_notMem.mpr fun _ h => by cases h
    rw [hnone]
    exact Set.finite_empty
  rows r hr := absurd hr List.not_mem_nil
  events _ := trivial

/-- **Only acknowledged events are `SENT` and only exhausted ones are `FAILED`.** In every state of
every run the message of a row that is sent has been acknowledged, a failed row has seen
`maxAutoRetries` failed dispatches, no row counts more than it has seen, and a row that is no
longer pending never changes again. -/
theorem sent_or_exhausted (hmax : 1 ≤ cfg.maxAutoRetries) {as : List (Action Relay)}
    (hrun : run (step cfg) .start as = some t) :
    (∀ r ∈ t.table.rows, (r.status = .sent → r.message ∈ t.acks) ∧
      (r.status = .failed → cfg.maxAutoRetries.toInt ≤ t.failures r.id) ∧
      r.retryCount ≤ t.failures r.id) ∧
    ∀ bs u, run (step cfg) t bs = some u →
      ∀ r ∈ t.table.rows, r.status ≠ .pending → r ∈ u.table.rows := by
  have hi := run_invariant' (fun _ _ _ hi hstep => inv_step hmax hi hstep) (inv_start cfg) hrun
  refine ⟨fun r hr => ?_, fun bs u hbs r hr hstatus => ?_⟩
  · obtain ⟨hacked, hexhausted, hcounted⟩ := hi.rows r hr
    exact ⟨hacked, hexhausted, Nat.le_trans (Nat.le_add_right _ _) hcounted⟩
  · exact run_invariant' (I := fun u => r ∈ u.table.rows)
      (fun _ _ _ hin hstep => settled_step hstep hin hstatus) hr hbs

/-- Two relays read an event; the send of the one fails and exhausts it, that of the other is
acknowledged too late. -/
theorem sent_or_exhausted_race :
    ∃ t : State ℕ, (t.table.rows.map fun r => (r.status, r.retryCount)) = [(.failed, 1)] ∧
      t.failures 1 = 1 ∧
      ∀ r ∈ t.table.rows, (r.status = .sent → r.message ∈ t.acks) ∧
        (r.status = .failed → (1 : Int32).toInt ≤ t.failures r.id) ∧
        r.retryCount ≤ t.failures r.id := by
  obtain ⟨t, ht, hrows⟩ := Option.map_eq_some_iff.mp
    (show (run (step ⟨10, 1, 1, 300⟩) .start
      [.insert ['r'] 1 ['e'] 5 none 0, .findDispatchable 0 0, .findDispatchable 1 0,
        .send 0 (some ⟨['T'], none⟩), .send 1 none, .handleFailure 0 .returns 0 0,
        .markSent 1 .returns ⟨[], none⟩ 0]).map (fun t : State ℕ =>
          (t.table.rows.map fun r => (r.status, r.retryCount), t.failures 1)) =
      some ([(.failed, 1)], 1) by decide +kernel)
  obtain ⟨hstatus, hfailures⟩ := Prod.mk.inj hrows
  exact ⟨t, hstatus, hfailures, (sent_or_exhausted (by decide) ht).1⟩

end Hmdp.Invalidation
