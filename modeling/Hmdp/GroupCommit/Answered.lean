import Hmdp.GroupCommit.Custody
import Hmdp.Lib.Machine

/-!
# Does the group commit answer every accepted request?

Requests are dropped in two ways. A poll of the inner loop throws `InterruptedException` while the
writer holds a batch: `catch (RuntimeException e)` fails the batch, `catch (InterruptedException e)`
forgets it, and `shutdown` itself interrupts the writers (`interrupted_batch_is_forgotten`). And an
`Error` of `insertCommitted` ends the thread.

`answered_iff` is exact: when the writers have terminated and the drain is over, every request that
was offered before is answered iff no step has dropped one of them (`Keeps`). In every run a
normal result is an event that is committed.

* `step_places`: what a step does to the place of a request.
* `kept_step`, `lost_step`: a request stays in a place or is answered; a lost one stays lost.
-/

namespace Hmdp.GroupCommit

open Hmdp.Lib Hmdp.Model

variable {c : Config} {rejects : Reservation → Bool} {s t : State} {a : Action}

/-- The request was offered before the drain was over. -/
def State.early (s : State) (id : ℕ) : Prop := ∀ n, s.shutdown = .drained n → id < n

instance (s : State) (id : ℕ) : Decidable (s.early id) :=
  match h : s.shutdown with
  | .drained n => decidable_of_iff (id < n) ⟨fun hid m hm => by cases h.symm.trans hm; exact hid,
      fun hid => hid n h⟩
  | .notCalled => isTrue fun _ hn => absurd (h.symm.trans hn) (by simp)
  | .interrupting _ => isTrue fun _ hn => absurd (h.symm.trans hn) (by simp)
  | .draining => isTrue fun _ hn => absurd (h.symm.trans hn) (by simp)

/-- The step drops no request that was offered before the drain was over: no poll throws and no
`insertCommitted` ends in an `Error` while the writer holds one. -/
def Keeps (s : State) : Action → Prop
  | .writer w .throwInterrupted => ∀ p ∈ (s.writers w).phase.held, ¬s.early p.id
  | .writer w (.insertCommitted (.error _)) => ∀ p ∈ (s.writers w).phase.held, ¬s.early p.id
  | _ => True

instance (s : State) (a : Action) : Decidable (Keeps s a) := by
  unfold Keeps
  split <;> infer_instance

/-! ## One step -/

/-- How far `shutdown` gets in a step that moves no request. -/
def DrainEnds (s t : State) : Prop :=
  t.shutdown = s.shutdown ∨ (∀ n, s.shutdown ≠ .drained n) ∧
    ∀ n, t.shutdown = .drained n → n = s.offers.length ∧ s.queue = []

/-- A step is a writer's turn, an offer, a `poll` of the drain, or it moves no request. -/
theorem step_kind (h : step c rejects s a = some t) :
    (∃ w action, a = .writer w action ∧ w < c.writerCount ∧ Turn rejects s w action t) ∨
      (∃ event, t = s.offer event) ∨
      (∃ p queue, s.queue = p :: queue ∧ s.shutdown = .draining ∧ t = s.failHead p queue) ∨
      Still s t ∧ DrainEnds s t := by
  cases a with
  | offer request now =>
    simp only [step] at h
    split at h
    · cases h
      exact Or.inr (Or.inl ⟨_, rfl⟩)
    · exact absurd h (by simp)
  | writer w action =>
    simp only [step] at h
    split at h
    · rename_i hw
      exact Or.inl ⟨w, action, rfl, hw, writerStep_turn h⟩
    · exact absurd h (by simp)
  | interrupt w =>
    cases h
    exact Or.inr (Or.inr (Or.inr ⟨still_interrupt s w true, Or.inl rfl⟩))
  | shutdown =>
    simp only [step] at h
    split at h
    · rename_i hstage
      cases h
      refine Or.inr (Or.inr (Or.inr ⟨⟨rfl, fun _ => rfl, rfl, rfl, keepsOutbox_refl _⟩, Or.inr ?_⟩))
      exact ⟨by simp [hstage], by simp⟩
    · exact absurd h (by simp)
  | interruptNext =>
    simp only [step] at h
    split at h
    · rename_i next hstage
      split at h
      · cases h
        have hs := still_interrupt s next true
        refine Or.inr (Or.inr (Or.inr ⟨⟨hs.queue, hs.phases, hs.results, hs.offers, hs.db⟩,
          Or.inr ?_⟩))
        exact ⟨by simp [hstage], by simp⟩
      · exact absurd h (by simp)
    · exact absurd h (by simp)
  | join =>
    simp only [step] at h
    split at h
    · rename_i next hstage
      split at h
      · exact absurd h (by simp)
      · cases h
        refine Or.inr (Or.inr (Or.inr ⟨⟨rfl, fun _ => rfl, rfl, rfl, keepsOutbox_refl _⟩,
          Or.inr ?_⟩))
        exact ⟨by simp [hstage], by simp⟩
    · exact absurd h (by simp)
  | drain =>
    simp only [step] at h
    split at h
    · rename_i hstage
      split at h
      · rename_i hqueue
        cases h
        refine Or.inr (Or.inr (Or.inr ⟨⟨rfl, fun _ => rfl, rfl, rfl, keepsOutbox_refl _⟩,
          Or.inr ⟨by simp [hstage], fun n hn => ?_⟩⟩))
        cases hn
        exact ⟨rfl, hqueue⟩
      · rename_i p queue hqueue
        cases h
        exact Or.inr (Or.inr (Or.inl ⟨p, queue, hqueue, hstage, rfl⟩))
    · exact absurd h (by simp)
  | database db =>
    simp only [step] at h
    split at h
    · rename_i hkeep
      cases h
      exact Or.inr (Or.inr (Or.inr ⟨⟨rfl, fun _ => rfl, rfl, rfl, hkeep⟩, Or.inl rfl⟩))
    · exact absurd h (by simp)

/-- **The step lemma.** -/
theorem inv_step (hs : Inv c s) (h : step c rejects s a = some t) : Inv c t := by
  rcases step_kind h with ⟨w, action, -, hw, hturn⟩ | ⟨event, rfl⟩ | ⟨p, queue, hq, hd, rfl⟩ |
    ⟨hstill, hdrained⟩
  · exact inv_turn hs hw hturn
  · exact inv_offer hs event
  · exact inv_failHead hs hq hd
  · refine hstill.inv hs fun n hn => ?_
    rcases hdrained with hsame | ⟨-, hends⟩
    · exact hs.drained n (hsame ▸ hn)
    · obtain ⟨rfl, hq⟩ := hends n hn
      exact ⟨le_refl _, by simp [hq]⟩

theorem grows_step (h : step c rejects s a = some t) : Grows s t := by
  rcases step_kind h with ⟨w, action, -, -, hturn⟩ | ⟨event, rfl⟩ | ⟨p, queue, -, -, rfl⟩ |
    ⟨hstill, -⟩
  · exact grows_turn hturn
  · exact grows_offer event
  · exact grows_failHead p queue
  · exact hstill.grows

/-- The step drops what a writer holds. -/
def Drops (s : State) (a : Action) (id : ℕ) : Prop :=
  ∃ w action, a = .writer w action ∧ action.drops ∧ id ∈ ids (s.writers w).phase.held

/-- **What a step does to a request without a result**: it stays in its place, is answered out of
one, is new, or is dropped. -/
theorem step_places (hs : Inv c s) (h : step c rejects s a = some t) {id : ℕ}
    (hid : s.results id = none) :
    t.results id = none ∧ places c t id = places c s id ∧ t.offers.length ≤ s.offers.length ∨
      t.results id = none ∧ (0 < places c t id ↔ 0 < places c s id ∨ id = s.offers.length) ∧
        t.offers.length = s.offers.length + 1 ∨
      (t.results id).isSome ∧ 0 < places c s id ∨
      t.results id = none ∧ Drops s a id ∧ places c t id = 0 ∧
        t.offers.length ≤ s.offers.length := by
  rcases step_kind h with ⟨w, action, rfl, hw, hturn⟩ | ⟨event, rfl⟩ | ⟨p, queue, hq, hd, rfl⟩ |
    ⟨hstill, -⟩
  · have hlen : t.offers.length ≤ s.offers.length := by rw [(frame_turn hturn).offers]
    rcases places_turn hs hw hturn hid with ⟨hr, hp⟩ | ⟨hr, hp⟩ | ⟨hdrop, hr, hp⟩
    · exact Or.inl ⟨hr, hp, hlen⟩
    · exact Or.inr (Or.inr (Or.inl ⟨hr, hp⟩))
    · by_cases hmem : id ∈ ids (s.writers w).phase.held
      · have hpos := List.count_pos_iff.mpr hmem
        have := hs.once id hid
        exact Or.inr (Or.inr (Or.inr ⟨hr, ⟨w, action, rfl, hdrop, hmem⟩, by omega, hlen⟩))
      · rw [List.count_eq_zero.mpr hmem] at hp
        exact Or.inl ⟨hr, hp, hlen⟩
  · refine Or.inr (Or.inl ⟨hid, ?_, by simp [State.offer]⟩)
    rw [places_offer]
    split
    · rename_i hnew
      simp [hnew]
    · rename_i hnew
      simp [hnew]
  · have hp := @places_failHead c s p queue hq id
    have hoffers : (s.failHead p queue).offers = s.offers := by
      unfold State.failHead State.complete
      split <;> rfl
    by_cases hpid : p.id = id
    · rw [if_pos hpid] at hp
      refine Or.inr (Or.inr (Or.inl ⟨?_, by omega⟩))
      rw [← hpid]
      exact complete_isSome _ _
    · rw [if_neg hpid] at hp
      refine Or.inl ⟨?_, by omega, by rw [hoffers]⟩
      show (State.complete _ _ _).results id = none
      rw [complete_results_ne _ (Ne.symm hpid)]
      exact hid
  · exact Or.inl ⟨by rw [hstill.results]; exact hid, hstill.places_eq id, by rw [hstill.offers]⟩

/-- Whether an offered request came before the end of the drain does not change. -/
theorem early_step (h : step c rejects s a = some t) {id : ℕ} (hid : id < s.offers.length) :
    t.early id ↔ s.early id := by
  have hends : t.shutdown = s.shutdown ∨ (∀ n, s.shutdown ≠ .drained n) ∧
      ∀ n, t.shutdown = .drained n → n = s.offers.length := by
    rcases step_kind h with ⟨w, action, -, -, hturn⟩ | ⟨event, rfl⟩ | ⟨p, queue, -, -, rfl⟩ |
      ⟨-, hdrained⟩
    · exact Or.inl (frame_turn hturn).shutdown
    · exact Or.inl rfl
    · refine Or.inl ?_
      unfold State.failHead State.complete
      split <;> rfl
    · exact hdrained.imp_right fun hd => ⟨hd.1, fun n hn => (hd.2 n hn).1⟩
  rcases hends with hsame | ⟨hnot, hends⟩
  · unfold State.early
    rw [hsame]
  · refine ⟨fun _ n hn => absurd hn (hnot n), fun _ n hn => ?_⟩
    rw [hends n hn]
    exact hid

/-! ## Every run -/

/-- Every early request is answered or in a place. -/
def Kept (c : Config) (s : State) : Prop :=
  ∀ id < s.offers.length, s.early id → s.results id = none → 0 < places c s id

/-- The request has no result and is nowhere. -/
def Lost (c : Config) (id : ℕ) (s : State) : Prop :=
  id < s.offers.length ∧ s.results id = none ∧ places c s id = 0

/-- **A step that drops no early request loses none.** -/
theorem kept_step : Preserves (step c rejects) Keeps fun s => Inv c s ∧ Kept c s := by
  intro s a t hkeeps ⟨hs, hk⟩ h
  refine ⟨inv_step hs h, fun id hid hearly hnone => ?_⟩
  have hbefore : s.results id = none := by
    by_contra hsome
    rw [(grows_step h).results id (Option.isSome_iff_ne_none.mpr hsome)] at hnone
    exact hsome hnone
  rcases step_places hs h hbefore with ⟨-, hp, hlen⟩ | ⟨-, hp, hlen⟩ | ⟨hsome, -⟩ |
    ⟨-, ⟨w, action, rfl, hdrop, hmem⟩, -, hlen⟩
  · rw [hp]
    exact hk id (by omega) ((early_step h (by omega)).mp hearly) hbefore
  · rw [hp]
    by_cases hnew : id = s.offers.length
    · exact Or.inr hnew
    · exact Or.inl (hk id (by omega) ((early_step h (by omega)).mp hearly) hbefore)
  · rw [hnone] at hsome
    exact absurd hsome (by simp)
  · obtain ⟨p, hp, rfl⟩ := List.mem_map.mp hmem
    have hearly' := (early_step h (by omega)).mp hearly
    unfold WriterAction.drops at hdrop
    split at hdrop
    · exact absurd hearly' (hkeeps p hp)
    · exact absurd hearly' (hkeeps p hp)
    · exact absurd hdrop id

/-- **A lost request stays lost.** -/
theorem lost_step {id : ℕ} (hs : Inv c s) (hl : Lost c id s) (h : step c rejects s a = some t) :
    Lost c id t := by
  obtain ⟨hid, hnone, hzero⟩ := hl
  have hoffers : s.offers.length ≤ t.offers.length := (grows_step h).offers.length_le
  rcases step_places hs h hnone with ⟨hr, hp, -⟩ | ⟨hr, hp, -⟩ | ⟨-, hp⟩ | ⟨hr, -, hp, -⟩
  · exact ⟨by omega, hr, by omega⟩
  · exact ⟨by omega, hr, by omega⟩
  · omega
  · exact ⟨by omega, hr, hp⟩

/-- A step that drops an early request loses it. -/
theorem lost_of_not_keeps (hs : Inv c s) (hkeeps : ¬Keeps s a)
    (h : step c rejects s a = some t) : ∃ id, s.early id ∧ id < s.offers.length ∧ Lost c id t := by
  have hlost : ∀ {w action p}, a = .writer w action → action.drops →
      p ∈ (s.writers w).phase.held → s.early p.id →
      ∃ id, s.early id ∧ id < s.offers.length ∧ Lost c id t := by
    intro w action p ha hdrop hp hearly
    rw [ha] at h
    simp only [step] at h
    split at h
    · rename_i hw
      have hturn := writerStep_turn h
      obtain ⟨hreq, hnone, hzero⟩ := lost_turn hs hw hturn hdrop hp
      have hid := (List.getElem?_eq_some_iff.mp hreq).1
      exact ⟨p.id, hearly, hid, by rwa [(frame_turn hturn).offers], hnone, hzero⟩
    · exact absurd h (by simp)
  unfold Keeps at hkeeps
  split at hkeeps
  · simp only [not_forall, not_not] at hkeeps
    obtain ⟨p, hp, hearly⟩ := hkeeps
    exact hlost rfl trivial hp hearly
  · simp only [not_forall, not_not] at hkeeps
    obtain ⟨p, hp, hearly⟩ := hkeeps
    exact hlost rfl trivial hp hearly
  · exact absurd trivial hkeeps

/-- A run that ends with all early requests answered has dropped none. -/
theorem along_keeps_of_answered {as : List Action} (hs : Inv c s)
    (hrun : run (step c rejects) s as = some t)
    (ht : ∀ id < t.offers.length, t.early id → (t.results id).isSome) :
    Along (step c rejects) Keeps s as := by
  induction as generalizing s with
  | nil => trivial
  | cons a as ih =>
    obtain ⟨u, hu, hrest⟩ := run_cons.mp hrun
    have hkeeps : Keeps s a := by
      by_contra hkeeps
      obtain ⟨id, hearly, hid, hlost⟩ := lost_of_not_keeps hs hkeeps hu
      have hend : Inv c t ∧ Lost c id t ∧ t.early id :=
        run_invariant' (I := fun v => Inv c v ∧ Lost c id v ∧ v.early id)
          (fun _ _ _ hv hstep => ⟨inv_step hv.1 hstep, lost_step hv.1 hv.2.1 hstep,
            (early_step hstep hv.2.1.1).mpr hv.2.2⟩)
          ⟨inv_step hs hu, hlost, (early_step hu hid).mpr hearly⟩ hrest
      obtain ⟨-, ⟨hidt, hnone, -⟩, hearly⟩ := hend
      have := ht id hidt hearly
      rw [hnone] at this
      exact absurd this (by simp)
    refine ⟨hkeeps, fun v hv => ?_⟩
    cases hu.symm.trans hv
    exact ih (inv_step hs hu) hrest

theorem inv_initial (db : Db) : Inv c (initial db) := by
  have hzero : ∀ id, places c (initial db) id = 0 := by
    intro id
    have hhands : ∀ w < c.writerCount, hands (initial db) w = [] := fun _ _ => rfl
    show custody (ids (initial db).queue) (hands (initial db)) c.writerCount id = 0
    rw [custody_eq_count hhands]
    rfl
  exact ⟨fun id _ => by rw [hzero]; exact Nat.zero_le 1, fun id _ => ⟨hzero id, rfl⟩,
    fun p hp => absurd hp (by simp [initial]), fun _ _ => trivial,
    fun n hn => absurd hn (by simp [initial]), fun id e he => absurd he (by simp [initial])⟩

/-- **When every accepted request is answered.** In every run a normal result is a committed event
of the request's order; and once `shutdown` has drained the queue and all writers have terminated,
every request that was offered before the drain was over has a result iff no step has dropped
one. -/
theorem answered_iff (c : Config) (rejects : Reservation → Bool) (db : Db) {t : State}
    {as : List Action} (hrun : run (step c rejects) (initial db) as = some t) :
    (∀ id e, t.results id = some (.event e) → Answers t id e) ∧
      ∀ n, t.shutdown = .drained n →
        (∀ w < c.writerCount, (t.writers w).phase = .terminated) →
        (Along (step c rejects) Keeps (initial db) as ↔ ∀ id < n, (t.results id).isSome) := by
  have hinv : Inv c t := run_invariant' (fun _ _ _ => inv_step) (inv_initial db) hrun
  refine ⟨hinv.results, fun n hn hstop => ⟨fun hkeeps => ?_, fun hall => ?_⟩⟩
  · have hkept : Inv c t ∧ Kept c t := run_invariant kept_step hkeeps
      ⟨inv_initial db, fun id hid => absurd hid (by simp [initial])⟩ hrun
    intro id hid
    obtain ⟨hle, hqueue⟩ := hinv.drained n hn
    rw [Option.isSome_iff_ne_none]
    intro hnone
    have hpos := hkept.2 id (by omega) (fun m hm => by cases hn.symm.trans hm; exact hid) hnone
    -- the writers hold nothing, and what is in the queue came later
    have hhands : ∀ w < c.writerCount, hands t w = [] := by
      intro w hw
      unfold hands
      rw [hstop w hw]
      rfl
    unfold places at hpos
    rw [custody_eq_count hhands] at hpos
    obtain ⟨p, hp, rfl⟩ := List.mem_map.mp (List.count_pos_iff.mp hpos)
    have := hqueue p hp
    omega
  · refine along_keeps_of_answered (inv_initial db) hrun fun id _ hearly => ?_
    exact hall id (hearly n hn)

/-! ### Two shutdowns -/

/-- The defaults of the configuration. -/
def defaults : Config := ⟨100, 4096, 1⟩

/-- The end of the service: `shutdown` has drained the queue and the writer has terminated. -/
def State.over (s : State) (offers : ℕ) : Bool :=
  decide (s.shutdown = .drained offers) && decide ((s.writers 0).phase = .terminated)

/-- The writer takes the one request there is. -/
def taken : List Action := [.offer ⟨1, 7, 5, false⟩ 0, .writer 0 .enter, .writer 0 .take]

/-- `shutdown` while the writer waits for more. -/
def forgotten : List Action :=
  taken ++ [.shutdown, .interruptNext, .writer 0 .throwInterrupted, .writer 0 .enter, .join, .drain]

/-- `shutdown` after the writer has committed the batch. -/
def committedFirst : List Action :=
  taken ++ [.writer 0 .close, .writer 0 (.insertCommitted .returns), .shutdown, .interruptNext,
    .writer 0 .answer, .writer 0 .answer, .writer 0 .enter, .join, .drain]

theorem answered_committedFirst :
    ∃ t, run (step defaults fun _ => false) (initial Db.empty) committedFirst = some t ∧
      t.shutdown = .drained 1 ∧ ∀ id < 1, (t.results id).isSome := by
  obtain ⟨t, ht, hover⟩ := (Option.any_eq_true _ _).mp
    (show (run (step defaults fun _ => false) (initial Db.empty) committedFirst).any
      (fun t => t.over 1) = true by decide +kernel)
  simp only [State.over, Bool.and_eq_true, decide_eq_true_eq] at hover
  have hkeeps : Along (step defaults fun _ => false) Keeps (initial Db.empty) committedFirst := by
    decide +kernel
  refine ⟨t, ht, hover.1, ((answered_iff defaults (fun _ => false) Db.empty ht).2 1 hover.1
    fun w hw => ?_).mp hkeeps⟩
  have hw0 : w = 0 := Nat.lt_one_iff.mp hw
  rw [hw0]
  exact hover.2

/-- **The law fails**: the interrupt of `shutdown` reaches the writer while it waits for a second
request. All threads end, and the first request never gets a result. -/
theorem interrupted_batch_is_forgotten :
    ∃ t, run (step defaults fun _ => false) (initial Db.empty) forgotten = some t ∧
      t.shutdown = .drained 1 ∧ (∀ w < defaults.writerCount, (t.writers w).phase = .terminated) ∧
      t.results 0 = none := by
  obtain ⟨t, ht, hover⟩ := (Option.any_eq_true _ _).mp
    (show (run (step defaults fun _ => false) (initial Db.empty) forgotten).any
      (fun t => t.over 1 && decide (t.results 0 = none)) = true by decide +kernel)
  simp only [State.over, Bool.and_eq_true, decide_eq_true_eq] at hover
  refine ⟨t, ht, hover.1.1, fun w hw => ?_, hover.2⟩
  have hw0 : w = 0 := Nat.lt_one_iff.mp hw
  rw [hw0]
  exact hover.1.2

end Hmdp.GroupCommit
