import Hmdp.Model.GroupCommit
import Hmdp.Lib.Custody

/-!
# Where the requests of the group commit are

A request without a result is in one place: the queue, or what one writer holds. A turn of a
writer (`Turn`) moves requests between the queue, the writer and their results; a poll that throws
and an `Error` of `insertCommitted` are the turns that drop what the writer holds.

* `writerStep_turn`: what a step of a writer can do.
* `places_turn`: what it does to the place of a request.
* **`inv_turn`**, `inv_offer`, `inv_failHead`, `Still.inv`: one place for each request, and a
  committed event behind each normal result (`Inv`).
-/

namespace Hmdp.GroupCommit

open Hmdp.Lib Hmdp.Model

variable {c : Config} {rejects : Reservation → Bool} {s t : State} {w : ℕ}

/-! ## Results -/

/-- The outbox has a row of the event. -/
def Committed (db : Db) (e : SeckillOrderOutboxEvent) : Prop :=
  ∃ row ∈ db.outbox.rows, row.reservation = e.reservation ∧ row.eventId = e.eventId

/-- A normal result of the request: a committed event of its order. -/
def Answers (s : State) (id : ℕ) (e : SeckillOrderOutboxEvent) : Prop :=
  ∃ request, s.offers[id]? = some request ∧ e.reservation = request.reservation ∧
    Committed s.db request

/-- The requests a writer still has to do something with. -/
def Phase.held : Phase → List PendingAcceptance
  | .collecting batch => batch
  | .committing batch => batch
  | .completing _ todo _ => todo
  | .failing todo _ => todo
  | _ => []

/-! ## Places -/

/-- The numbers of the requests of a list. -/
def ids (requests : List PendingAcceptance) : List ℕ := requests.map PendingAcceptance.id

/-- What each writer holds. -/
def hands (s : State) (w : ℕ) : List ℕ := ids (s.writers w).phase.held

/-- In how many places a request is. -/
def places (c : Config) (s : State) (id : ℕ) : ℕ := custody (ids s.queue) (hands s) c.writerCount id

@[simp] theorem ids_nil : ids [] = [] := rfl

@[simp] theorem ids_cons (p : PendingAcceptance) (l : List PendingAcceptance) :
    ids (p :: l) = p.id :: ids l := rfl

@[simp] theorem ids_append (l l' : List PendingAcceptance) : ids (l ++ l') = ids l ++ ids l' :=
  List.map_append

theorem mem_ids {l : List PendingAcceptance} {p : PendingAcceptance} (h : p ∈ l) : p.id ∈ ids l :=
  List.mem_map_of_mem h

theorem hands_setWriter (w : ℕ) (writer : Writer) :
    hands (s.setWriter w writer) = Function.update (hands s) w (ids writer.phase.held) := by
  funext v
  by_cases hv : v = w
  · subst hv
    simp [hands, State.setWriter]
  · simp [hands, State.setWriter, hv]

@[simp] theorem setWriter_queue (w : ℕ) (writer : Writer) :
    (s.setWriter w writer).queue = s.queue := rfl

@[simp] theorem setWriter_results (w : ℕ) (writer : Writer) :
    (s.setWriter w writer).results = s.results := rfl

@[simp] theorem setWriter_offers (w : ℕ) (writer : Writer) :
    (s.setWriter w writer).offers = s.offers := rfl

@[simp] theorem complete_queue (id : ℕ) (r : Result) : (s.complete id r).queue = s.queue := by
  unfold State.complete
  split <;> rfl

@[simp] theorem complete_writers (id : ℕ) (r : Result) :
    (s.complete id r).writers = s.writers := by
  unfold State.complete
  split <;> rfl

/-- A writer's step moves requests between its hands and the queue. -/
theorem places_setWriter (u : State) (writer : Writer) (hw : w < c.writerCount)
    (hu : u.writers = s.writers) (id : ℕ) :
    places c (u.setWriter w writer) id + (ids s.queue).count id +
        (ids (s.writers w).phase.held).count id =
      places c s id + (ids u.queue).count id + (ids writer.phase.held).count id := by
  unfold places
  rw [hands_setWriter, show hands u = hands s by unfold hands; rw [hu]]
  exact custody_update hw id

theorem places_setPhase (u : State) (queue : List PendingAcceptance) (phase : Phase)
    (hw : w < c.writerCount) (hu : u.writers = s.writers) (hq : u.queue = queue) (id : ℕ) :
    places c (u.setPhase w phase) id + (ids s.queue).count id +
        (ids (s.writers w).phase.held).count id =
      places c s id + (ids queue).count id + (ids phase.held).count id :=
  hq ▸ places_setWriter u _ hw hu id

/-- Nothing changes hands. -/
theorem places_same {u : State} {phase : Phase} (hw : w < c.writerCount)
    (hu : u.writers = s.writers) (hq : u.queue = s.queue)
    (hheld : phase.held = (s.writers w).phase.held) (id : ℕ) :
    places c (u.setPhase w phase) id = places c s id := by
  have hp := places_setPhase u _ phase hw hu hq id
  rw [hheld] at hp
  omega

theorem held_le_places (hw : w < c.writerCount) (id : ℕ) :
    (ids s.queue).count id + (ids (s.writers w).phase.held).count id ≤ places c s id :=
  @count_le_custody _ _ (ids s.queue) (hands s) _ _ hw id

/-! ## The turns of a writer -/

theorem keepsOutbox_refl (db : Db) : keepsOutbox db db := fun row hrow => ⟨row, hrow, rfl, rfl⟩

theorem keepsOutbox_insertCommitted (rejects : Reservation → Bool)
    (events : List SeckillOrderOutboxEvent) (db : Db) :
    keepsOutbox db (transactional (insertCommitted rejects events db) db) := by
  cases h : insertCommitted rejects events db with
  | error e => exact keepsOutbox_refl db
  | ok r =>
    have hdb : r.2 = (insertIgnoreBatch events db).2 := (insertCommitted_ok h).2.1
    intro row hrow
    refine ⟨row, ?_, rfl, rfl⟩
    show row ∈ r.2.outbox.rows
    rw [hdb]
    exact mem_insertIgnoreBatch.mpr (Or.inl hrow)

/-- The turn forgets what the writer holds. -/
def WriterAction.drops : WriterAction → Prop
  | .throwInterrupted => True
  | .insertCommitted (.error _) => True
  | _ => False

/-- What a step of a writer can do. -/
inductive Turn (rejects : Reservation → Bool) (s : State) (w : ℕ) : WriterAction → State → Prop
  /-- the thread goes on with what it holds -/
  | move {action : WriterAction} {writer : Writer} (hkeep : ¬action.drops)
      (hheld : writer.phase.held = (s.writers w).phase.held)
      (hphase : writer.phase.held = [] ∧ (∀ b l e, writer.phase ≠ .completing b l e) ∨
        ∃ batch, (s.writers w).phase = .collecting batch ∧ writer.phase = .committing batch) :
      Turn rejects s w action (s.setWriter w writer)
  | take {p : PendingAcceptance} {queue batch : List PendingAcceptance}
      (hqueue : s.queue = p :: queue)
      (hphase : (s.writers w).phase = .polling ∧ batch = [] ∨
        (s.writers w).phase = .collecting batch) :
      Turn rejects s w .take ({ s with queue := queue }.setPhase w (.collecting (batch ++ [p])))
  /-- `catch (InterruptedException e)` -/
  | forget {writer : Writer} (hphase : writer.phase = .loop)
      (hold : (s.writers w).phase = .polling ∨ ∃ batch, (s.writers w).phase = .collecting batch) :
      Turn rejects s w .throwInterrupted (s.setWriter w writer)
  | committed {batch : List PendingAcceptance} {events : List SeckillOrderOutboxEvent} {db : Db}
      (hphase : (s.writers w).phase = .committing batch)
      (hok : insertCommitted rejects (batch.map PendingAcceptance.event) s.db = .ok (events, db)) :
      Turn rejects s w (.insertCommitted .returns)
        ({ s with db := db }.setPhase w (.completing batch batch events))
  /-- `catch (RuntimeException e)` around `insertCommitted` -/
  | failed {action : WriterAction} {batch : List PendingAcceptance} {failure : Failure} {db : Db}
      (hkeep : ¬action.drops) (hphase : (s.writers w).phase = .committing batch)
      (hdb : keepsOutbox s.db db) :
      Turn rejects s w action ({ s with db := db }.setPhase w (.failing batch failure))
  /-- an `Error` ends the thread -/
  | killed {applied : Bool} {batch : List PendingAcceptance} {db : Db}
      (hphase : (s.writers w).phase = .committing batch) (hdb : keepsOutbox s.db db) :
      Turn rejects s w (.insertCommitted (.error applied))
        ({ s with db := db }.setPhase w .terminated)
  | complete {p : PendingAcceptance} {batch todo : List PendingAcceptance}
      {events : List SeckillOrderOutboxEvent} {e : SeckillOrderOutboxEvent}
      (hphase : (s.writers w).phase = .completing batch (p :: todo) events)
      (hfind : events.find? (fun e => decide (e.orderId = p.event.orderId)) = some e) :
      Turn rejects s w .answer
        ((s.complete p.id (.event e)).setPhase w (.completing batch todo events))
  /-- the exception of `commit` itself: the whole batch is failed -/
  | missing {p : PendingAcceptance} {batch todo : List PendingAcceptance}
      {events : List SeckillOrderOutboxEvent}
      (hphase : (s.writers w).phase = .completing batch (p :: todo) events) :
      Turn rejects s w .answer (s.setPhase w (.failing batch (.missing p.event.orderId)))
  | fail {p : PendingAcceptance} {todo : List PendingAcceptance} {failure : Failure}
      (hphase : (s.writers w).phase = .failing (p :: todo) failure) :
      Turn rejects s w .answer
        ((s.complete p.id (.exception failure)).setPhase w (.failing todo failure))

theorem poll_turn {batch : List PendingAcceptance}
    (hphase : (s.writers w).phase = .polling ∧ batch = [] ∨
      (s.writers w).phase = .collecting batch)
    (h : s.poll w batch = some t) : Turn rejects s w .take t := by
  unfold State.poll at h
  split at h
  · exact absurd h (by simp)
  · rename_i hqueue
    cases h
    exact .take hqueue hphase

theorem catchInterrupted_turn
    (hold : (s.writers w).phase = .polling ∨ ∃ batch, (s.writers w).phase = .collecting batch)
    (h : s.catchInterrupted w = some t) : Turn rejects s w .throwInterrupted t := by
  unfold State.catchInterrupted at h
  split at h
  · cases h
    exact .forget rfl hold
  · exact absurd h (by simp)

theorem commit_turn {batch : List PendingAcceptance} {reply : Reply}
    (hphase : (s.writers w).phase = .committing batch) :
    Turn rejects s w (.insertCommitted reply) (s.commit rejects w batch reply) := by
  have hkeep := keepsOutbox_insertCommitted rejects (batch.map PendingAcceptance.event) s.db
  unfold State.commit
  cases reply with
  | returns =>
    cases hr : insertCommitted rejects (batch.map PendingAcceptance.event) s.db with
    | ok r => exact .committed hphase hr
    | error e => exact .failed id hphase (keepsOutbox_refl s.db)
  | runtimeException applied =>
    refine .failed id hphase ?_
    split
    · exact hkeep
    · exact keepsOutbox_refl s.db
  | error applied =>
    refine .killed hphase ?_
    split
    · exact hkeep
    · exact keepsOutbox_refl s.db

theorem writerStep_turn {action : WriterAction} (h : writerStep c rejects s w action = some t) :
    Turn rejects s w action t := by
  unfold writerStep at h
  split at h
  · -- the condition of the `while`
    rename_i hphase
    cases h
    split <;> exact .move id (by rw [hphase]; rfl) (Or.inl ⟨rfl, by simp⟩)
  · rename_i hphase
    exact poll_turn (Or.inl ⟨hphase, rfl⟩) h
  · rename_i hphase
    split at h
    · cases h
      exact .move id (by rw [hphase]; rfl) (Or.inl ⟨rfl, by simp⟩)
    · exact absurd h (by simp)
  · rename_i hphase
    exact catchInterrupted_turn (Or.inl hphase) h
  · rename_i hphase
    split at h
    · exact poll_turn (Or.inr hphase) h
    · exact absurd h (by simp)
  · rename_i hphase
    cases h
    exact .move id (by rw [hphase]; rfl) (Or.inr ⟨_, hphase, rfl⟩)
  · rename_i hphase
    split at h
    · exact catchInterrupted_turn (Or.inr ⟨_, hphase⟩) h
    · exact absurd h (by simp)
  · rename_i hphase
    cases h
    exact commit_turn hphase
  · rename_i hphase
    cases h
    exact .move id (by rw [hphase]; rfl) (Or.inl ⟨rfl, by simp⟩)
  · rename_i hphase
    split at h
    · rename_i hfind
      cases h
      exact .complete hphase hfind
    · cases h
      exact .missing hphase
  · rename_i hphase
    cases h
    exact .move id (by rw [hphase]; rfl) (Or.inl ⟨rfl, by simp⟩)
  · rename_i hphase
    cases h
    exact .fail hphase
  · exact absurd h (by simp)

/-! ## One place for each request -/

/-- The request is the one that was offered under its number. -/
def State.requested (s : State) (p : PendingAcceptance) : Prop := s.offers[p.id]? = some p.event

/-- What is known of a writer at each point of `runWriter`. -/
def WriterOk (s : State) : Phase → Prop
  | .collecting batch => ∀ p ∈ batch, s.requested p ∧ s.results p.id = none
  | .committing batch => ∀ p ∈ batch, s.requested p ∧ s.results p.id = none
  | .completing batch todo events =>
    (∀ p ∈ batch, s.requested p ∧ Committed s.db p.event ∧
      ∀ e ∈ events, e.orderId = p.event.orderId → e.reservation = p.event.reservation) ∧
    (∃ done, batch = done ++ todo ∧ ∀ p ∈ done, (s.results p.id).isSome) ∧
    ∀ p ∈ todo, s.results p.id = none
  | .failing todo _ => ∀ p ∈ todo, s.requested p
  | _ => True

/-- The invariant of every run. -/
structure Inv (c : Config) (s : State) : Prop where
  /-- a request without a result is in one place at most … -/
  once : ∀ id, s.results id = none → places c s id ≤ 1
  /-- … and one that was never offered is nowhere -/
  fresh : ∀ id, s.offers.length ≤ id → places c s id = 0 ∧ s.results id = none
  queued : ∀ p ∈ s.queue, s.requested p ∧ s.results p.id = none
  writers : ∀ w < c.writerCount, WriterOk s (s.writers w).phase
  drained : ∀ n, s.shutdown = .drained n → n ≤ s.offers.length ∧ ∀ p ∈ s.queue, n ≤ p.id
  results : ∀ id e, s.results id = some (.event e) → Answers s id e

/-- What every step leaves: the offers, the results and the rows. -/
structure Grows (s t : State) : Prop where
  offers : s.offers <+: t.offers
  results : ∀ id, (s.results id).isSome → t.results id = s.results id
  db : keepsOutbox s.db t.db

theorem Committed.mono {db db' : Db} {e : SeckillOrderOutboxEvent} (h : Committed db e)
    (hkeep : keepsOutbox db db') : Committed db' e := by
  obtain ⟨row, hrow, hres, hev⟩ := h
  obtain ⟨row', hrow', hres', hev'⟩ := hkeep row hrow
  exact ⟨row', hrow', hres'.trans hres, hev'.trans hev⟩

theorem Grows.offer (h : Grows s t) {id : ℕ} {e : SeckillOrderOutboxEvent}
    (he : s.offers[id]? = some e) : t.offers[id]? = some e := by
  obtain ⟨l, hl⟩ := h.offers
  rw [← hl]
  exact List.getElem?_append_left (List.getElem?_eq_some_iff.mp he).1 ▸ he

theorem Grows.isSome (h : Grows s t) {id : ℕ} (hid : (s.results id).isSome) :
    (t.results id).isSome := by
  rw [h.results id hid]
  exact hid

/-- A writer that keeps its phase stays as it was, unless somebody else answers a request it
holds. -/
theorem WriterOk.mono {phase : Phase} (h : WriterOk s phase) (hg : Grows s t)
    (hnone : ∀ p ∈ phase.held, s.results p.id = none → t.results p.id = none) :
    WriterOk t phase := by
  cases phase with
  | loop => trivial
  | polling => trivial
  | terminated => trivial
  | collecting batch => exact fun p hp => ⟨hg.offer (h p hp).1, hnone p hp (h p hp).2⟩
  | committing batch => exact fun p hp => ⟨hg.offer (h p hp).1, hnone p hp (h p hp).2⟩
  | completing batch todo events =>
    obtain ⟨hbatch, ⟨done, hdone, hsome⟩, htodo⟩ := h
    refine ⟨fun p hp => ?_, ⟨done, hdone, fun p hp => hg.isSome (hsome p hp)⟩,
      fun p hp => hnone p hp (htodo p hp)⟩
    obtain ⟨hreq, hcom, hev⟩ := hbatch p hp
    exact ⟨hg.offer hreq, hcom.mono hg.db, hev⟩
  | failing todo failure => exact fun p hp => hg.offer (h p hp)

theorem Answers.mono {id : ℕ} {e : SeckillOrderOutboxEvent} (h : Answers s id e)
    (hg : Grows s t) : Answers t id e := by
  obtain ⟨request, hreq, hres, hcom⟩ := h
  exact ⟨request, hg.offer hreq, hres, hcom.mono hg.db⟩

/-! ### Completing a result -/

theorem complete_results_of_none {id : ℕ} {r : Result} (h : s.results id = none) :
    (s.complete id r).results = Function.update s.results id (some r) := by
  unfold State.complete
  rw [h]

theorem complete_isSome (id : ℕ) (r : Result) : ((s.complete id r).results id).isSome := by
  unfold State.complete
  split
  · rename_i x hx
    rw [hx]
    rfl
  · simp

theorem complete_results_ne {id id' : ℕ} (r : Result) (h : id' ≠ id) :
    (s.complete id r).results id' = s.results id' := by
  unfold State.complete
  split
  · rfl
  · simp [h]

theorem grows_complete (id : ℕ) (r : Result) : Grows s (s.complete id r) := by
  unfold State.complete
  split
  · exact ⟨List.prefix_rfl, fun _ _ => rfl, keepsOutbox_refl _⟩
  · rename_i hnone
    refine ⟨List.prefix_rfl, fun id' hid' => ?_, keepsOutbox_refl _⟩
    by_cases h : id' = id
    · rw [h, hnone] at hid'
      exact absurd hid' (by simp)
    · simp [h]

/-! ### The turns -/

theorem grows_turn {action : WriterAction} (h : Turn rejects s w action t) : Grows s t := by
  cases h with
  | move => exact ⟨List.prefix_rfl, fun _ _ => rfl, keepsOutbox_refl _⟩
  | take => exact ⟨List.prefix_rfl, fun _ _ => rfl, keepsOutbox_refl _⟩
  | forget => exact ⟨List.prefix_rfl, fun _ _ => rfl, keepsOutbox_refl _⟩
  | committed hphase hok =>
    rename_i batch events db
    have hkeep := keepsOutbox_insertCommitted rejects (batch.map PendingAcceptance.event) s.db
    rw [hok] at hkeep
    exact ⟨List.prefix_rfl, fun _ _ => rfl, hkeep⟩
  | failed hkeep hphase hdb => exact ⟨List.prefix_rfl, fun _ _ => rfl, hdb⟩
  | killed hphase hdb => exact ⟨List.prefix_rfl, fun _ _ => rfl, hdb⟩
  | complete =>
    exact ⟨(grows_complete _ _).offers, (grows_complete _ _).results, (grows_complete _ _).db⟩
  | missing => exact ⟨List.prefix_rfl, fun _ _ => rfl, keepsOutbox_refl _⟩
  | fail =>
    exact ⟨(grows_complete _ _).offers, (grows_complete _ _).results, (grows_complete _ _).db⟩

/-- The head of what a writer holds is answered, the rest stays. -/
theorem places_answer {p : PendingAcceptance} {todo : List PendingAcceptance} {phase : Phase}
    {r : Result} (hw : w < c.writerCount) (hheld : (s.writers w).phase.held = p :: todo)
    (hphase : phase.held = todo) {id : ℕ} (hid : s.results id = none) :
    ((s.complete p.id r).setPhase w phase).results id = none ∧
        places c ((s.complete p.id r).setPhase w phase) id = places c s id ∨
      (((s.complete p.id r).setPhase w phase).results id).isSome ∧ 0 < places c s id := by
  have hp := places_setPhase (s.complete p.id r) _ phase hw (complete_writers p.id r)
    (complete_queue p.id r) id
  have hle := @held_le_places c s w hw id
  simp only [hheld, hphase, ids_cons, List.count_cons] at hp hle
  by_cases hpid : p.id = id
  · refine Or.inr ⟨?_, ?_⟩
    · rw [← hpid]
      exact complete_isSome _ _
    · rw [if_pos (by simpa using hpid)] at hle
      omega
  · refine Or.inl ⟨?_, ?_⟩
    · show (s.complete p.id r).results id = none
      rw [complete_results_ne r (Ne.symm hpid), hid]
    · rw [if_neg (by simpa using hpid)] at hp
      omega

/-- A dropping turn empties the writer's hands. -/
theorem places_drop {action : WriterAction} (hw : w < c.writerCount)
    (h : Turn rejects s w action t) (hdrop : action.drops) : t.results = s.results ∧
      ∀ id, places c t id + (ids (s.writers w).phase.held).count id = places c s id := by
  cases h with
  | move hkeep => exact absurd hdrop hkeep
  | take => exact absurd hdrop id
  | forget hphase hold =>
    rename_i writer
    refine ⟨rfl, fun id => ?_⟩
    have hp := places_setWriter s writer hw rfl id
    have hnil : (ids writer.phase.held).count id = 0 := by rw [hphase]; rfl
    omega
  | committed => exact absurd hdrop id
  | failed hkeep => exact absurd hdrop hkeep
  | killed =>
    rename_i applied batch db hphase hdb
    refine ⟨rfl, fun id => ?_⟩
    have hp := @places_setPhase c s w { s with db := db } s.queue .terminated hw rfl rfl id
    have hnil : (ids Phase.terminated.held).count id = 0 := rfl
    omega
  | complete => exact absurd hdrop id
  | missing => exact absurd hdrop id
  | fail => exact absurd hdrop id

/-- What becomes of the places of a request without a result. -/
theorem places_turn {action : WriterAction} (hs : Inv c s) (hw : w < c.writerCount)
    (h : Turn rejects s w action t) {id : ℕ} (hid : s.results id = none) :
    t.results id = none ∧ places c t id = places c s id ∨
      (t.results id).isSome ∧ 0 < places c s id ∨
      action.drops ∧ t.results id = none ∧
        places c t id + (ids (s.writers w).phase.held).count id = places c s id := by
  by_cases hdrop : action.drops
  · obtain ⟨hr, hp⟩ := places_drop hw h hdrop
    exact Or.inr (Or.inr ⟨hdrop, by rw [hr]; exact hid, hp id⟩)
  cases h with
  | move hkeep hheld hphase =>
    rename_i writer
    have hp := places_setWriter s writer hw rfl id
    rw [hheld] at hp
    exact Or.inl ⟨hid, by omega⟩
  | take hqueue hphase =>
    rename_i p queue batch
    refine Or.inl ⟨hid, ?_⟩
    have hheld : (s.writers w).phase.held = batch := by
      rcases hphase with ⟨hphase, rfl⟩ | hphase <;> rw [hphase] <;> rfl
    have hp := @places_setPhase c s w { s with queue := queue } queue
      (.collecting (batch ++ [p])) hw rfl rfl id
    rw [hqueue, hheld, Phase.held, ids_append, List.count_append, ids_cons, ids_cons,
      List.count_cons, List.count_cons, ids_nil, List.count_nil] at hp
    omega
  | forget => exact absurd trivial hdrop
  | committed hphase hok =>
    exact Or.inl ⟨hid, places_same hw (by rfl) (by rfl) (by rw [hphase]; rfl) id⟩
  | failed hkeep hphase hdb =>
    exact Or.inl ⟨hid, places_same hw (by rfl) (by rfl) (by rw [hphase]; rfl) id⟩
  | killed => exact absurd trivial hdrop
  | complete hphase hfind =>
    rename_i p batch todo events e
    rcases @places_answer c s w p todo (.completing batch todo events) (.event e) hw
      (by rw [hphase]; rfl) rfl id hid with h | h
    · exact Or.inl h
    · exact Or.inr (Or.inl h)
  | missing hphase =>
    rename_i p batch todo events
    have hp := places_setPhase s s.queue (.failing batch (.missing p.event.orderId)) hw rfl rfl id
    -- a request of the batch that is not in `todo` has its result
    obtain ⟨-, ⟨done, hbatch, hdone⟩, -⟩ := hphase ▸ hs.writers w hw
    have hzero : (ids done).count id = 0 := by
      rw [List.count_eq_zero]
      intro hmem
      obtain ⟨q, hq, rfl⟩ := List.mem_map.mp hmem
      have := hdone q hq
      rw [hid] at this
      exact absurd this (by simp)
    simp only [hphase, Phase.held, hbatch, ids_append, List.count_append, hzero] at hp
    refine Or.inl ⟨hid, ?_⟩
    rw [hbatch]
    omega
  | fail hphase =>
    rename_i p todo failure
    rcases @places_answer c s w p todo (.failing todo failure) (.exception failure) hw
      (by rw [hphase]; rfl) rfl id hid with h | h
    · exact Or.inl h
    · exact Or.inr (Or.inl h)

/-- What a turn leaves alone. -/
structure Frame (s : State) (w : ℕ) (t : State) : Prop where
  offers : t.offers = s.offers
  shutdown : t.shutdown = s.shutdown
  queue : t.queue ⊆ s.queue
  writers : ∀ v, v ≠ w → t.writers v = s.writers v
  results : ∀ id, id ∉ ids (s.writers w).phase.held → t.results id = s.results id

theorem frame_answer {p : PendingAcceptance} {todo : List PendingAcceptance} {phase : Phase}
    {r : Result} (hheld : (s.writers w).phase.held = p :: todo) :
    Frame s w ((s.complete p.id r).setPhase w phase) := by
  have hc : (s.complete p.id r).offers = s.offers ∧ (s.complete p.id r).shutdown = s.shutdown := by
    unfold State.complete
    split <;> exact ⟨rfl, rfl⟩
  refine ⟨hc.1, hc.2, ?_, fun v hv => ?_, fun id hid => ?_⟩
  · exact fun q hq => by rwa [← complete_queue (s := s) p.id r]
  · show Function.update (s.complete p.id r).writers w _ v = _
    rw [Function.update_of_ne hv, complete_writers]
  · rw [hheld, ids_cons, List.mem_cons, not_or] at hid
    exact complete_results_ne r hid.1

theorem frame_turn {action : WriterAction} (h : Turn rejects s w action t) : Frame s w t := by
  have hwriters : ∀ writer v, v ≠ w → Function.update s.writers w writer v = s.writers v :=
    fun writer v hv => Function.update_of_ne hv writer s.writers
  cases h with
  | move => exact ⟨rfl, rfl, List.Subset.refl _, hwriters _, fun _ _ => rfl⟩
  | take hqueue hphase =>
    refine ⟨rfl, rfl, fun q hq => ?_, hwriters _, fun _ _ => rfl⟩
    rw [hqueue]
    exact List.mem_cons_of_mem _ hq
  | forget => exact ⟨rfl, rfl, List.Subset.refl _, hwriters _, fun _ _ => rfl⟩
  | committed => exact ⟨rfl, rfl, List.Subset.refl _, hwriters _, fun _ _ => rfl⟩
  | failed => exact ⟨rfl, rfl, List.Subset.refl _, hwriters _, fun _ _ => rfl⟩
  | killed => exact ⟨rfl, rfl, List.Subset.refl _, hwriters _, fun _ _ => rfl⟩
  | complete hphase hfind => exact frame_answer (by rw [hphase]; rfl)
  | missing => exact ⟨rfl, rfl, List.Subset.refl _, hwriters _, fun _ _ => rfl⟩
  | fail hphase => exact frame_answer (by rw [hphase]; rfl)

/-- **What `insertCommitted` returns is committed**, and belongs to the request of its order. -/
theorem returned_ok {batch : List PendingAcceptance} {events : List SeckillOrderOutboxEvent}
    {db db' : Db}
    (h : insertCommitted rejects (batch.map PendingAcceptance.event) db = .ok (events, db')) :
    ∀ p ∈ batch, Committed db' p.event ∧
      ∀ e ∈ events, e.orderId = p.event.orderId → e.reservation = p.event.reservation := by
  intro p hp
  obtain ⟨row, hrow, hres, hev⟩ := (insertCommitted_ok h).2.2 p.event (List.mem_map_of_mem hp)
  refine ⟨⟨row, hrow, hres, hev⟩, fun e he ho => ?_⟩
  obtain ⟨row', hrow', hres'⟩ := insertCommitted_accepted h e he
  -- the order id is a key of the outbox
  have hsame : row' = row := db'.outbox.eq_of_clash hrow' hrow (outboxKeys_clash.mpr
    (Or.inr (Or.inr ((congrArg Reservation.orderId hres').trans
      (ho.trans (congrArg Reservation.orderId hres).symm)))))
  rw [← hres', hsame, hres]

theorem writerOk_of_held_nil {phase : Phase} (hnil : phase.held = [])
    (hne : ∀ b l e, phase ≠ .completing b l e) : WriterOk s phase := by
  cases phase with
  | loop => trivial
  | polling => trivial
  | terminated => trivial
  | completing b l e => exact absurd rfl (hne b l e)
  | collecting b =>
    change b = [] at hnil
    simp [WriterOk, hnil]
  | committing b =>
    change b = [] at hnil
    simp [WriterOk, hnil]
  | failing l f =>
    change l = [] at hnil
    simp [WriterOk, hnil]

/-- An unanswered request the writer holds is nowhere else. -/
theorem Inv.held_once (hs : Inv c s) (hw : w < c.writerCount) {id : ℕ}
    (hid : s.results id = none) :
    (ids s.queue).count id + (ids (s.writers w).phase.held).count id ≤ 1 :=
  (held_le_places hw id).trans (hs.once id hid)

/-- The writer itself after its turn. -/
theorem writerOk_turn {action : WriterAction} (hs : Inv c s) (hw : w < c.writerCount)
    (h : Turn rejects s w action t) : WriterOk t (t.writers w).phase := by
  have hok := hs.writers w hw
  cases h with
  | move hkeep hheld hphase =>
    rename_i writer
    show WriterOk s (Function.update s.writers w writer w).phase
    rw [Function.update_self]
    rcases hphase with ⟨hnil, hne⟩ | ⟨batch, hold, hnew⟩
    · exact writerOk_of_held_nil hnil hne
    · rw [hold] at hok
      rw [hnew]
      exact hok
  | take hqueue hphase =>
    rename_i p queue batch
    show WriterOk s (Function.update s.writers w _ w).phase
    rw [Function.update_self]
    intro q hq
    rcases List.mem_append.mp hq with hq | hq
    · rcases hphase with ⟨-, rfl⟩ | hphase
      · exact absurd hq (by simp)
      · rw [hphase] at hok
        exact hok q hq
    · rw [List.mem_singleton.mp hq]
      exact hs.queued p (by rw [hqueue]; exact List.mem_cons_self)
  | forget hphase hold =>
    rename_i writer
    show WriterOk s (Function.update s.writers w writer w).phase
    rw [Function.update_self, hphase]
    trivial
  | committed hphase hret =>
    rename_i batch events db
    rw [hphase] at hok
    show WriterOk { s with db := db } (Function.update s.writers w _ w).phase
    rw [Function.update_self]
    refine ⟨fun p hp => ⟨(hok p hp).1, returned_ok hret p hp⟩, ⟨[], rfl, by simp⟩, fun p hp => ?_⟩
    exact (hok p hp).2
  | failed hkeep hphase hdb =>
    rename_i batch failure db
    rw [hphase] at hok
    show WriterOk { s with db := db } (Function.update s.writers w _ w).phase
    rw [Function.update_self]
    exact fun p hp => (hok p hp).1
  | killed hphase hdb =>
    rename_i applied batch db
    show WriterOk { s with db := db } (Function.update s.writers w _ w).phase
    rw [Function.update_self]
    trivial
  | complete hphase hfind =>
    rename_i p batch todo events e
    rw [hphase] at hok
    obtain ⟨hbatch, ⟨done, hdone, hsome⟩, hnone⟩ := hok
    have hp := hnone p List.mem_cons_self
    have honce := hs.held_once hw hp
    rw [hphase, Phase.held, ids_cons, List.count_cons_self] at honce
    have htodo : ∀ q ∈ todo, q.id ≠ p.id := by
      intro q hq he
      have : 0 < (ids todo).count p.id := List.count_pos_iff.mpr (he ▸ mem_ids hq)
      omega
    have hg := @grows_complete s p.id (.event e)
    have hlast : ∃ done', batch = done' ++ todo ∧
        ∀ q ∈ done', ((s.complete p.id (.event e)).results q.id).isSome := by
      refine ⟨done ++ [p], by rw [hdone]; simp, fun q hq => ?_⟩
      rcases List.mem_append.mp hq with hq | hq
      · exact hg.isSome (hsome q hq)
      · rw [List.mem_singleton.mp hq]
        exact complete_isSome _ _
    show WriterOk (s.complete p.id (.event e))
      (Function.update (s.complete p.id (.event e)).writers w _ w).phase
    rw [Function.update_self]
    refine ⟨fun q hq => ?_, hlast, fun q hq => ?_⟩
    · obtain ⟨hreq, hcom, hev⟩ := hbatch q hq
      exact ⟨hg.offer hreq, hcom.mono hg.db, hev⟩
    · rw [complete_results_ne _ (htodo q hq)]
      exact hnone q (List.mem_cons_of_mem p hq)
  | missing hphase =>
    rename_i p batch todo events
    rw [hphase] at hok
    show WriterOk s (Function.update s.writers w _ w).phase
    rw [Function.update_self]
    exact fun q hq => (hok.1 q hq).1
  | fail hphase =>
    rename_i p todo failure
    rw [hphase] at hok
    show WriterOk (s.complete p.id (.exception failure))
      (Function.update (s.complete p.id (.exception failure)).writers w _ w).phase
    rw [Function.update_self]
    exact fun q hq => (grows_complete p.id _).offer (hok q (List.mem_cons_of_mem p hq))

/-- **A new normal result** is a committed event of the request's order. -/
theorem answers_turn {action : WriterAction} (hs : Inv c s) (hw : w < c.writerCount)
    (h : Turn rejects s w action t) {id : ℕ} {e : SeckillOrderOutboxEvent}
    (hid : s.results id = none) (he : t.results id = some (.event e)) : Answers t id e := by
  have hok := hs.writers w hw
  have hsame : t.results = s.results → Answers t id e := by
    intro hr
    rw [hr, hid] at he
    exact absurd he (by simp)
  cases h with
  | move => exact hsame rfl
  | take => exact hsame rfl
  | forget => exact hsame rfl
  | committed => exact hsame rfl
  | failed => exact hsame rfl
  | killed => exact hsame rfl
  | missing => exact hsame rfl
  | complete hphase hfind =>
    rename_i p batch todo events e'
    rw [hphase] at hok
    obtain ⟨hbatch, ⟨done, hdone, -⟩, hnone⟩ := hok
    change (s.complete p.id (.event e')).results id = some (.event e) at he
    by_cases hpid : id = p.id
    · have hp : p ∈ batch := by
        rw [hdone]
        exact List.mem_append_right _ List.mem_cons_self
      obtain ⟨hreq, hcom, hev⟩ := hbatch p hp
      rw [hpid, complete_results_of_none (hnone p List.mem_cons_self),
        Function.update_self] at he
      cases he
      have hg := @grows_complete s p.id (.event e)
      refine ⟨p.event, ?_, hev e (List.mem_of_find?_eq_some hfind) ?_, hcom.mono hg.db⟩
      · rw [hpid]
        exact hg.offer hreq
      · simpa using List.find?_some hfind
    · rw [complete_results_ne _ hpid, hid] at he
      exact absurd he (by simp)
  | fail hphase =>
    rename_i p todo failure
    change (s.complete p.id (.exception failure)).results id = some (.event e) at he
    by_cases hpid : id = p.id
    · rw [hpid] at hid he
      rw [complete_results_of_none hid, Function.update_self] at he
      exact absurd he (by simp)
    · rw [complete_results_ne _ hpid, hid] at he
      exact absurd he (by simp)

/-- **A turn keeps the invariant.** -/
theorem inv_turn {action : WriterAction} (hs : Inv c s) (hw : w < c.writerCount)
    (h : Turn rejects s w action t) : Inv c t := by
  have hf := frame_turn h
  have hg := grows_turn h
  -- who has no result now had none before
  have hback : ∀ {id}, t.results id = none → s.results id = none := by
    intro id hid
    by_contra hsome
    have := hg.isSome (Option.isSome_iff_ne_none.mpr hsome)
    rw [hid] at this
    exact absurd this (by simp)
  -- a request that is elsewhere is not answered
  have helse : ∀ {id}, s.results id = none → 0 < (ids s.queue).count id →
      t.results id = none := by
    intro id hid hpos
    have hle := hs.held_once hw hid
    rw [hf.results id fun hmem => by have := List.count_pos_iff.mpr hmem; omega, hid]
  refine ⟨fun id hid => ?_, fun id hid => ?_, fun p hp => ?_, fun v hv => ?_, fun n hn => ?_,
    fun id e he => ?_⟩
  · have hsome := hback hid
    have hle := hs.once id hsome
    rcases places_turn hs hw h hsome with ⟨-, hp⟩ | ⟨hp, -⟩ | ⟨-, -, hp⟩
    · omega
    · rw [hid] at hp
      exact absurd hp (by simp)
    · omega
  · rw [hf.offers] at hid
    obtain ⟨hzero, hnone⟩ := hs.fresh id hid
    rcases places_turn hs hw h hnone with ⟨hr, hp⟩ | ⟨-, hp⟩ | ⟨-, hr, hp⟩
    · exact ⟨by omega, hr⟩
    · omega
    · exact ⟨by omega, hr⟩
  · obtain ⟨hreq, hnone⟩ := hs.queued p (hf.queue hp)
    exact ⟨hg.offer hreq, helse hnone (List.count_pos_iff.mpr (mem_ids (hf.queue hp)))⟩
  · by_cases hvw : v = w
    · rw [hvw]
      exact writerOk_turn hs hw h
    · rw [hf.writers v hvw]
      refine (hs.writers v hv).mono hg fun p hp hnone => ?_
      have htwo := @count_add_count_le_custody _ _ (ids s.queue) (hands s) _ _ v hv hw hvw p.id
      have hle : places c s p.id ≤ 1 := hs.once p.id hnone
      have hpos : 0 < (ids (s.writers v).phase.held).count p.id :=
        List.count_pos_iff.mpr (mem_ids hp)
      rw [hf.results p.id fun hmem => ?_, hnone]
      have := List.count_pos_iff.mpr hmem
      unfold places hands at hle
      unfold hands at htwo
      omega
  · rw [hf.shutdown] at hn
    obtain ⟨hle, hq⟩ := hs.drained n hn
    rw [hf.offers]
    exact ⟨hle, fun p hp => hq p (hf.queue hp)⟩
  · by_cases hold : (s.results id).isSome
    · rw [hg.results id hold] at he
      exact (hs.results id e he).mono hg
    · exact answers_turn hs hw h (by simpa using hold) he

/-- **What a turn drops is lost**: no result, and no place. -/
theorem lost_turn {action : WriterAction} (hs : Inv c s) (hw : w < c.writerCount)
    (h : Turn rejects s w action t) (hdrop : action.drops) {p : PendingAcceptance}
    (hp : p ∈ (s.writers w).phase.held) :
    s.requested p ∧ t.results p.id = none ∧ places c t p.id = 0 := by
  have hok := hs.writers w hw
  have hfresh : s.requested p ∧ s.results p.id = none ∧ t.results = s.results := by
    cases h with
    | move hkeep => exact absurd hdrop hkeep
    | take => exact absurd hdrop id
    | forget hphase hold =>
      rcases hold with hold | ⟨batch, hold⟩
      · rw [hold] at hp
        exact absurd hp (by simp [Phase.held])
      · rw [hold] at hok hp
        exact ⟨(hok p hp).1, (hok p hp).2, rfl⟩
    | committed => exact absurd hdrop id
    | failed hkeep => exact absurd hdrop hkeep
    | killed hphase =>
      rw [hphase] at hok hp
      exact ⟨(hok p hp).1, (hok p hp).2, rfl⟩
    | complete => exact absurd hdrop id
    | missing => exact absurd hdrop id
    | fail => exact absurd hdrop id
  obtain ⟨hreq, hnone, hsame⟩ := hfresh
  have honce := hs.once p.id hnone
  have hpos : 0 < (ids (s.writers w).phase.held).count p.id := List.count_pos_iff.mpr (mem_ids hp)
  have hdropped := (places_drop hw h hdrop).2 p.id
  exact ⟨hreq, by rw [hsame]; exact hnone, by omega⟩

/-! ### The other steps -/

/-- No request moves and none is answered. -/
structure Still (s t : State) : Prop where
  queue : t.queue = s.queue
  phases : ∀ v, (t.writers v).phase = (s.writers v).phase
  results : t.results = s.results
  offers : t.offers = s.offers
  db : keepsOutbox s.db t.db

theorem Still.grows (h : Still s t) : Grows s t :=
  ⟨by rw [h.offers], fun _ _ => by rw [h.results], h.db⟩

theorem Still.places_eq (h : Still s t) (id : ℕ) : places c t id = places c s id := by
  have hhands : hands t = hands s := by
    funext v
    unfold hands
    rw [h.phases]
  unfold places
  rw [h.queue, hhands]

theorem Still.inv (h : Still s t) (hs : Inv c s)
    (hdrained : ∀ n, t.shutdown = .drained n → n ≤ s.offers.length ∧ ∀ p ∈ s.queue, n ≤ p.id) :
    Inv c t where
  once id hid := by
    rw [h.places_eq]
    exact hs.once id (by rwa [← h.results])
  fresh id hid := by
    rw [h.places_eq, h.results]
    exact hs.fresh id (by rwa [← h.offers])
  queued p hp := by
    rw [h.queue] at hp
    obtain ⟨hreq, hnone⟩ := hs.queued p hp
    exact ⟨h.grows.offer hreq, by rwa [h.results]⟩
  writers v hv := by
    rw [h.phases]
    exact (hs.writers v hv).mono h.grows fun p _ hnone => by rwa [h.results]
  drained n hn := by
    rw [h.queue, h.offers]
    exact hdrained n hn
  results id e he := by
    rw [h.results] at he
    exact (hs.results id e he).mono h.grows

theorem still_interrupt (s : State) (w : ℕ) (flag : Bool) :
    Still s (s.setWriter w ⟨(s.writers w).phase, flag⟩) := by
  refine ⟨rfl, fun v => ?_, rfl, rfl, keepsOutbox_refl _⟩
  by_cases hv : v = w
  · rw [hv]
    show (Function.update s.writers w _ w).phase = _
    rw [Function.update_self]
  · show (Function.update s.writers w _ v).phase = _
    rw [Function.update_of_ne hv]

/-- A request is offered. -/
def State.offer (s : State) (event : SeckillOrderOutboxEvent) : State :=
  { s with
    queue := s.queue ++ [⟨s.offers.length, event⟩]
    offers := s.offers ++ [event] }

theorem places_offer (event : SeckillOrderOutboxEvent) (id : ℕ) :
    places c (s.offer event) id = places c s id + if id = s.offers.length then 1 else 0 := by
  unfold places custody
  have hhands : hands (s.offer event) = hands s := rfl
  have hqueue : ids (s.offer event).queue = ids s.queue ++ [s.offers.length] := ids_append _ _
  rw [hhands, hqueue, List.count_append, List.count_singleton]
  by_cases hid : id = s.offers.length
  · simp [hid]
    omega
  · have hne : (s.offers.length == id) = false := by simpa using Ne.symm hid
    rw [hne, if_neg hid]
    simp

theorem grows_offer (event : SeckillOrderOutboxEvent) : Grows s (s.offer event) :=
  ⟨List.prefix_append _ _, fun _ _ => rfl, keepsOutbox_refl _⟩

theorem inv_offer (hs : Inv c s) (event : SeckillOrderOutboxEvent) : Inv c (s.offer event) := by
  have hg := @grows_offer s event
  refine ⟨fun id hid => ?_, fun id hid => ?_, fun p hp => ?_, fun v hv => ?_, fun n hn => ?_,
    fun id e he => (hs.results id e he).mono hg⟩
  · rw [places_offer]
    split
    · rename_i hnew
      have := (hs.fresh id hnew.ge).1
      omega
    · exact hs.once id hid
  · have hlen : (s.offer event).offers.length = s.offers.length + 1 := by
      simp [State.offer]
    rw [hlen] at hid
    obtain ⟨hzero, hnone⟩ := hs.fresh id (by omega)
    rw [places_offer, if_neg (by omega)]
    exact ⟨hzero, hnone⟩
  · rcases List.mem_append.mp hp with hp | hp
    · obtain ⟨hreq, hnone⟩ := hs.queued p hp
      exact ⟨hg.offer hreq, hnone⟩
    · rw [List.mem_singleton.mp hp]
      refine ⟨?_, (hs.fresh _ (le_refl _)).2⟩
      show (s.offers ++ [event])[s.offers.length]? = some event
      simp
  · exact (hs.writers v hv).mono hg fun p _ hnone => hnone
  · obtain ⟨hle, hq⟩ := hs.drained n hn
    refine ⟨hle.trans hg.offers.length_le, fun p hp => ?_⟩
    rcases List.mem_append.mp hp with hp | hp
    · exact hq p hp
    · rw [List.mem_singleton.mp hp]
      exact hle

/-- The drain fails the head of the queue. -/
def State.failHead (s : State) (p : PendingAcceptance) (queue : List PendingAcceptance) : State :=
  { s with queue := queue }.complete p.id (.exception .shutdown)

theorem places_failHead {p : PendingAcceptance} {queue : List PendingAcceptance}
    (hqueue : s.queue = p :: queue) (id : ℕ) :
    places c (s.failHead p queue) id + (if p.id = id then 1 else 0) = places c s id := by
  have hhands : hands (s.failHead p queue) = hands s := by
    funext v
    unfold hands State.failHead
    rw [complete_writers]
  have hq : (s.failHead p queue).queue = queue := complete_queue _ _
  unfold places custody
  rw [hhands, hq, hqueue, ids_cons, List.count_cons]
  simp only [beq_iff_eq]
  omega

theorem grows_failHead (p : PendingAcceptance) (queue : List PendingAcceptance) :
    Grows s (s.failHead p queue) :=
  have hg := @grows_complete { s with queue := queue } p.id (.exception .shutdown)
  ⟨hg.offers, hg.results, hg.db⟩

theorem inv_failHead (hs : Inv c s) {p : PendingAcceptance} {queue : List PendingAcceptance}
    (hqueue : s.queue = p :: queue) (hstage : s.shutdown = .draining) :
    Inv c (s.failHead p queue) := by
  have hnone : s.results p.id = none := (hs.queued p (by rw [hqueue]; exact List.mem_cons_self)).2
  have honce := hs.once p.id hnone
  have hg := @grows_failHead s p queue
  have hq : (s.failHead p queue).queue = queue := complete_queue _ _
  have hresults : ∀ id, id ≠ p.id → (s.failHead p queue).results id = s.results id :=
    fun id hid => complete_results_ne _ hid
  have hdone : (s.failHead p queue).results p.id = some (.exception .shutdown) := by
    have hr : (s.failHead p queue).results = _ :=
      @complete_results_of_none { s with queue := queue } p.id (.exception .shutdown) hnone
    rw [hr, Function.update_self]
  have hoffers : (s.failHead p queue).offers = s.offers ∧
      (s.failHead p queue).shutdown = s.shutdown ∧ (s.failHead p queue).writers = s.writers := by
    refine ⟨?_, ?_, complete_writers _ _⟩ <;>
    · unfold State.failHead State.complete
      split <;> rfl
  have hplaces := @places_failHead c s p queue hqueue
  refine ⟨fun id hid => ?_, fun id hid => ?_, fun q hp => ?_, fun v hv => ?_, fun n hn => ?_,
    fun id e he => ?_⟩
  · have hne : id ≠ p.id := by
      intro he
      rw [he, hdone] at hid
      exact absurd hid (by simp)
    rw [hresults id hne] at hid
    have := hs.once id hid
    have := hplaces id
    omega
  · rw [hoffers.1] at hid
    obtain ⟨hzero, hidnone⟩ := hs.fresh id hid
    have hp := hplaces id
    have hne : id ≠ p.id := by
      intro he
      rw [if_pos he.symm] at hp
      omega
    exact ⟨by omega, by rw [hresults id hne]; exact hidnone⟩
  · rw [hq] at hp
    obtain ⟨hreq, hqnone⟩ := hs.queued q (by rw [hqueue]; exact List.mem_cons_of_mem p hp)
    refine ⟨hg.offer hreq, ?_⟩
    have hne : q.id ≠ p.id := by
      intro he
      have hcount : (ids s.queue).count p.id = (ids queue).count p.id + 1 := by
        rw [hqueue, ids_cons, List.count_cons_self]
      have hpos : 0 < (ids queue).count p.id := List.count_pos_iff.mpr (he ▸ mem_ids hp)
      unfold places custody at honce
      omega
    rw [hresults q.id hne]
    exact hqnone
  · rw [hoffers.2.2]
    refine (hs.writers v hv).mono hg fun q hp hqnone => ?_
    have hne : q.id ≠ p.id := by
      intro he
      have hcount : (ids s.queue).count p.id = (ids queue).count p.id + 1 := by
        rw [hqueue, ids_cons, List.count_cons_self]
      have hpos : 0 < (ids (s.writers v).phase.held).count p.id :=
        List.count_pos_iff.mpr (he ▸ mem_ids hp)
      have := @held_le_places c s v hv p.id
      omega
    rw [hresults q.id hne]
    exact hqnone
  · rw [hoffers.2.1, hstage] at hn
    exact absurd hn (by simp)
  · have hne : id ≠ p.id := by
      intro heq
      rw [heq, hdone] at he
      exact absurd he (by simp)
    rw [hresults id hne] at he
    exact (hs.results id e he).mono hg

end Hmdp.GroupCommit
