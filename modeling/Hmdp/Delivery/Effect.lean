import Hmdp.Delivery.Step
import Hmdp.Pipeline.ManualReview

/-!
# What a step of the listeners does

* `Effect`: what each action does, once; every invariant is read off it.
* `pipeline_run`: a run under the listeners is a run of the pipeline, in which anything sent is
  delivered any number of times in any order.
* `Later`: what a step leaves in place: order rows, recovered messages, records.
* `Links`: the records of the two topics are the messages sent.
-/

namespace Hmdp.Delivery

open Hmdp.Lib Hmdp.Lib.ConsumerGroup Hmdp.Model Hmdp.Pipeline

variable {rejects : Reservation → Bool} {config : ListenerConfig} {s t : State}

/-! ## What an action does -/

/-- What one step does, a constructor a case: the only thing later proofs take from `step`. -/
inductive Effect (rejects : Reservation → Bool) (config : ListenerConfig) (s : State) :
    Action → State → Prop
  | pipeline {a : Pipeline.Action} {p : Pipeline.State} (free : elsewhere a = true)
      (step : Pipeline.step rejects s.pipeline a = some p) :
      Effect rejects config s (.pipeline a) { s with pipeline := p }
  | send {row : OutboxRow} {withOutboxId : Bool} {p : Pipeline.State}
      (step : Pipeline.step rejects s.pipeline (.send row withOutboxId) = some p) :
      Effect rejects config s (.send row withOutboxId)
        { s with
          pipeline := p
          orders := s.orders.append (config.partitionOf row.voucherId)
            (row.toMessage withOutboxId) }
  | orders {a : Move SeckillOrderMessage} {g : Topic SeckillOrderMessage}
      (container : ofListener a = false) (move : s.orders.move config.retryAttempts a = some g) :
      Effect rejects config s (.orders a) { s with orders := g }
  | deadLetters {a : Move SeckillOrderMessage} {g : Topic SeckillOrderMessage}
      (container : ofListener a = false) (waits : ∀ c ∈ waitsFor a, s.frames c = Frame.empty)
      (goesOn : ∀ c, a ≠ .leave c ∧ a ≠ .failed c)
      (move : s.deadLetters.move config.retryAttempts a = some g) :
      Effect rejects config s (.deadLetters a) { s with deadLetters := g }
  | leaves {c : ℕ} {g : Topic SeckillOrderMessage}
      (move : s.deadLetters.move config.retryAttempts (.leave c) = some g) :
      Effect rejects config s (.deadLetters (.leave c))
        ({ s with deadLetters := g }.setFrame c Frame.empty)
  | fails {c : ℕ} {g : Topic SeckillOrderMessage}
      (move : s.deadLetters.move config.retryAttempts (.failed c) = some g) :
      Effect rejects config s (.deadLetters (.failed c))
        ({ s with deadLetters := g }.setFrame c Frame.empty)
  | created {c : ℕ} {tx : Transaction} {batch : List Segment} {p : Pipeline.State}
      {os : List OrderDraft} {db : Db} {g : Topic SeckillOrderMessage}
      (listener : s.orders.running config.retryAttempts c = some batch)
      (step : Pipeline.step rejects s.pipeline (.createOrders tx (s.orders.records batch)) = some p)
      (ok : createOrders tx (s.orders.records batch) s.pipeline.db = .ok (os, db))
      (move : s.orders.move config.retryAttempts (.listened c) = some g) :
      Effect rejects config s (.onMessage c tx) { s with pipeline := p, orders := g }
  | rolledBack {c : ℕ} {tx : Transaction} {batch : List Segment} {p : Pipeline.State}
      {g : Topic SeckillOrderMessage}
      (step : Pipeline.step rejects s.pipeline (.createOrders tx (s.orders.records batch)) = some p)
      (move : s.orders.move config.retryAttempts (.failed c) = some g) :
      Effect rejects config s (.onMessage c tx) { s with pipeline := p, orders := g }
  | published {c p : ℕ} {answered : Bool} {m : SeckillOrderMessage}
      {g : Topic SeckillOrderMessage} (next : s.orders.nextToRecover c = some (p, m))
      (move : s.orders.move config.retryAttempts (.ofRecoverer c answered) = some g) :
      Effect rejects config s (.publish false c answered)
        { s with orders := g, deadLetters := s.deadLetters.append p m }
  | republished {c p : ℕ} {answered : Bool} {m : SeckillOrderMessage}
      {g : Topic SeckillOrderMessage} (next : s.deadLetters.nextToRecover c = some (p, m))
      (move : (s.deadLetters.append p m).move config.retryAttempts (.ofRecoverer c answered) =
        some g) :
      Effect rejects config s (.publish true c answered) { s with deadLetters := g }
  | found {c : ℕ} {batch : List Segment} {m : SeckillOrderMessage} {p : Pipeline.State}
      (listener : s.deadLetters.running config.retryAttempts c = some batch)
      (next : (s.deadLetters.records batch)[(s.frames c).cursor]? = some m)
      (step : Pipeline.step rejects s.pipeline (.readDeadLetter (2 * c) m) = some p)
      (called : (p.recoveries (2 * c)).isSome = true) :
      Effect rejects config s (.findByOrderId c)
        ({ s with pipeline := p }.setFrame c ⟨(s.frames c).cursor, some m⟩)
  | missing {c : ℕ} {m : SeckillOrderMessage} {p : Pipeline.State}
      {g : Topic SeckillOrderMessage}
      (step : Pipeline.step rejects s.pipeline (.readDeadLetter (2 * c) m) = some p)
      (move : s.deadLetters.move config.retryAttempts (.failed c) = some g) :
      Effect rejects config s (.findByOrderId c)
        ({ s with pipeline := p, deadLetters := g }.setFrame c Frame.empty)
  | calls {c : ℕ} {a : Pipeline.Action} {m : SeckillOrderMessage} {p : Pipeline.State}
      (calling : (s.frames c).calling = some m) (process : recoveryOf a = some (2 * c))
      (step : Pipeline.step rejects s.pipeline a = some p)
      (called : (p.recoveries (2 * c)).isSome = true) :
      Effect rejects config s (.recoverDeadLetter c a) { s with pipeline := p }
  | throws {c : ℕ} {p : Pipeline.State} {g : Topic SeckillOrderMessage}
      (step : Pipeline.step rejects s.pipeline (.retryThrow (2 * c)) = some p)
      (move : s.deadLetters.move config.retryAttempts (.failed c) = some g) :
      Effect rejects config s (.recoverDeadLetter c (.retryThrow (2 * c)))
        ({ s with pipeline := p, deadLetters := g }.setFrame c Frame.empty)
  | returns {c : ℕ} {a : Pipeline.Action} {m : SeckillOrderMessage} {p : Pipeline.State}
      (calling : (s.frames c).calling = some m) (process : recoveryOf a = some (2 * c))
      (normal : a ≠ .retryThrow (2 * c))
      (step : Pipeline.step rejects s.pipeline a = some p)
      (ended : p.recoveries (2 * c) = none) :
      Effect rejects config s (.recoverDeadLetter c a)
        ({ s with
          pipeline := p
          recovered := ⟨m, rowOfMessage m p.db⟩ :: s.recovered }.setFrame c
            ⟨(s.frames c).cursor + 1, none⟩)
  | acknowledges {c : ℕ} {batch : List Segment} {g : Topic SeckillOrderMessage}
      (listener : s.deadLetters.running config.retryAttempts c = some batch)
      (through : (s.deadLetters.records batch).length ≤ (s.frames c).cursor)
      (move : s.deadLetters.move config.retryAttempts (.listened c) = some g) :
      Effect rejects config s (.onDeadLetterReturns c)
        ({ s with deadLetters := g }.setFrame c Frame.empty)

/-- **One effect for each step.** -/
theorem step_effect {a : Action} (hstep : step rejects config s a = some t) :
    Effect rejects config s a t := by
  cases a with
  | pipeline a =>
    simp only [step] at hstep
    split at hstep
    · rename_i hfree
      obtain ⟨p, hp, rfl⟩ := Option.map_eq_some_iff.mp hstep
      exact .pipeline hfree hp
    · exact absurd hstep (by simp)
  | send row withOutboxId =>
    obtain ⟨p, hp, rfl⟩ := Option.map_eq_some_iff.mp hstep
    exact .send hp
  | orders a =>
    simp only [step] at hstep
    split at hstep
    · exact absurd hstep (by simp)
    · rename_i hcontainer
      obtain ⟨g, hg, rfl⟩ := Option.map_eq_some_iff.mp hstep
      exact .orders (by simpa using hcontainer) hg
  | deadLetters a =>
    simp only [step] at hstep
    split at hstep
    · exact absurd hstep (by simp)
    · rename_i hguard
      push Not at hguard
      obtain ⟨g, hg, hstep⟩ := Option.bind_eq_some_iff.mp hstep
      split at hstep
      · cases hstep
        exact .leaves hg
      · split at hstep <;> cases hstep
        exact .fails hg
      · rename_i hleave hfail
        cases hstep
        exact .deadLetters (by simpa using hguard.1) hguard.2
          (fun c => ⟨fun he => hleave c he, fun he => hfail c he⟩) hg
  | onMessage c tx =>
    obtain ⟨batch, hbatch, hstep⟩ := Option.bind_eq_some_iff.mp hstep
    obtain ⟨p, hp, hstep⟩ := Option.bind_eq_some_iff.mp hstep
    obtain ⟨g, hg, rfl⟩ := Option.map_eq_some_iff.mp hstep
    split at hg
    · exact .rolledBack hp hg
    · rename_i hok
      exact .created hbatch hp hok hg
  | publish fromDeadLetters c answered =>
    cases fromDeadLetters with
    | false =>
      obtain ⟨⟨p, m⟩, hnext, hstep⟩ := Option.bind_eq_some_iff.mp hstep
      obtain ⟨g, hg, rfl⟩ := Option.map_eq_some_iff.mp hstep
      exact .published hnext hg
    | true =>
      obtain ⟨⟨p, m⟩, hnext, hstep⟩ := Option.bind_eq_some_iff.mp hstep
      obtain ⟨g, hg, rfl⟩ := Option.map_eq_some_iff.mp hstep
      exact .republished hnext hg
  | findByOrderId c =>
    obtain ⟨batch, hbatch, hstep⟩ := Option.bind_eq_some_iff.mp hstep
    split at hstep
    · exact absurd hstep (by simp)
    · obtain ⟨m, hm, hstep⟩ := Option.bind_eq_some_iff.mp hstep
      obtain ⟨p, hp, hstep⟩ := Option.bind_eq_some_iff.mp hstep
      split at hstep
      · rename_i hcalled
        cases hstep
        exact .found hbatch hm hp hcalled
      · obtain ⟨g, hg, rfl⟩ := Option.map_eq_some_iff.mp hstep
        exact .missing hp hg
  | recoverDeadLetter c a =>
    obtain ⟨m, hm, hstep⟩ := Option.bind_eq_some_iff.mp hstep
    split at hstep
    · rename_i hprocess
      obtain ⟨p, hp, hstep⟩ := Option.bind_eq_some_iff.mp hstep
      split at hstep
      · rename_i hcalled
        cases hstep
        exact .calls hm hprocess hp hcalled
      · rename_i hover
        split at hstep
        · obtain ⟨g, hg, rfl⟩ := Option.map_eq_some_iff.mp hstep
          cases hprocess
          exact .throws hp hg
        · rename_i hnormal
          cases hstep
          exact .returns hm hprocess (fun he => hnormal _ he) hp (by simpa using hover)
    · exact absurd hstep (by simp)
  | onDeadLetterReturns c =>
    obtain ⟨batch, hbatch, hstep⟩ := Option.bind_eq_some_iff.mp hstep
    split at hstep
    · exact absurd hstep (by simp)
    · rename_i hguard
      push Not at hguard
      obtain ⟨g, hg, rfl⟩ := Option.map_eq_some_iff.mp hstep
      exact .acknowledges hbatch hguard.2 hg

/-- **The pipeline under the listeners** takes a step of its own, or none. -/
theorem Effect.pipeline_step {a : Action} (h : Effect rejects config s a t) :
    t.pipeline = s.pipeline ∨ ∃ b, Pipeline.step rejects s.pipeline b = some t.pipeline := by
  cases h with
  | pipeline _ step => exact Or.inr ⟨_, step⟩
  | send step => exact Or.inr ⟨_, step⟩
  | orders _ _ => exact Or.inl rfl
  | deadLetters _ _ _ _ => exact Or.inl rfl
  | leaves _ => exact Or.inl rfl
  | fails _ => exact Or.inl rfl
  | created _ step _ _ => exact Or.inr ⟨_, step⟩
  | rolledBack step _ => exact Or.inr ⟨_, step⟩
  | published _ _ => exact Or.inl rfl
  | republished _ _ => exact Or.inl rfl
  | found _ _ step _ => exact Or.inr ⟨_, step⟩
  | missing step _ => exact Or.inr ⟨_, step⟩
  | calls _ _ step _ => exact Or.inr ⟨_, step⟩
  | throws step _ => exact Or.inr ⟨_, step⟩
  | returns _ _ _ step _ => exact Or.inr ⟨_, step⟩
  | acknowledges _ _ _ => exact Or.inl rfl

/-- A run under the listeners is a run of the pipeline. -/
theorem pipeline_run {as : List Action} (hrun : run (step rejects config) s as = some t) :
    ∃ bs, run (Pipeline.step rejects) s.pipeline bs = some t.pipeline := by
  refine run_invariant' (I := fun u => ∃ bs,
    run (Pipeline.step rejects) s.pipeline bs = some u.pipeline) (fun u a w hu hstep => ?_)
    ⟨[], rfl⟩ hrun
  obtain ⟨bs, hbs⟩ := hu
  rcases (step_effect hstep).pipeline_step with heq | ⟨b, hb⟩
  · exact ⟨bs, heq ▸ hbs⟩
  · exact ⟨bs ++ [b], run_append.mpr ⟨_, hbs, run_single.mpr hb⟩⟩

/-! ## Settled messages -/

/-- The order is in `tb_voucher_order`. -/
def Persisted (s : State) (m : SeckillOrderMessage) : Prop :=
  ∃ o, m.orderId = some o ∧ s.pipeline.db.hasOrder o = true

/-- Its dead letter has been recovered, which has left the outbox row queued again, or in manual
review. -/
def Requeued (s : State) (m : SeckillOrderMessage) : Prop :=
  ∃ r ∈ s.recovered, r.message = m ∧
    ∃ e, r.row = some e ∧ (e.status = .pending ∨ e.status = .manualReview)

/-- A message that needs no delivery any more. -/
def Settled (s : State) (m : SeckillOrderMessage) : Prop := Persisted s m ∨ Requeued s m

/-- What is below the committed offset of the seckill topic. -/
def OrderDone (s : State) (p i : ℕ) : Prop :=
  ∃ m, s.orders.record (p, i) = some m ∧ (Settled s m ∨ ∃ q, m ∈ s.deadLetters.log q)

/-- What is below the committed offset of the dead-letter topic. -/
def DeadDone (s : State) (p i : ℕ) : Prop :=
  ∃ m, s.deadLetters.record (p, i) = some m ∧
    (Settled s m ∨ ∃ j, i < j ∧ s.deadLetters.record (p, j) = some m)

/-- What a step leaves in place. -/
structure Later (s t : State) : Prop where
  grows : Grows s.pipeline.db t.pipeline.db
  recovered : s.recovered ⊆ t.recovered
  orders : ∀ p, s.orders.log p <+: t.orders.log p
  deadLetters : ∀ p, s.deadLetters.log p <+: t.deadLetters.log p

namespace Later

theorem settled (h : Later s t) {m : SeckillOrderMessage} (hm : Settled s m) : Settled t m := by
  rcases hm with ⟨o, ho, hrow⟩ | ⟨r, hr, hrest⟩
  · exact Or.inl ⟨o, ho, h.grows.hasOrder hrow⟩
  · exact Or.inr ⟨r, h.recovered hr, hrest⟩

theorem orderDone (h : Later s t) {p i : ℕ} (hdone : OrderDone s p i) : OrderDone t p i := by
  obtain ⟨m, hm, hcase⟩ := hdone
  refine ⟨m, record_of_grown h.orders hm, hcase.imp h.settled ?_⟩
  rintro ⟨q, hq⟩
  exact ⟨q, (h.deadLetters q).subset hq⟩

theorem deadDone (h : Later s t) {p i : ℕ} (hdone : DeadDone s p i) : DeadDone t p i := by
  obtain ⟨m, hm, hcase⟩ := hdone
  refine ⟨m, record_of_grown h.deadLetters hm, hcase.imp h.settled ?_⟩
  rintro ⟨j, hj, hrecord⟩
  exact ⟨j, hj, record_of_grown h.deadLetters hrecord⟩

end Later

/-- **A step takes nothing away.** -/
theorem Effect.later {a : Action} (hs : Coherent rejects s.pipeline)
    (h : Effect rejects config s a t) : Later s t := by
  have hgrows : Grows s.pipeline.db t.pipeline.db := by
    rcases h.pipeline_step with heq | ⟨b, hb⟩
    · rw [heq]
      exact Grows.refl _
    · exact step_grows hs hb
  have hsame : ∀ g : Topic SeckillOrderMessage, ∀ p, g.log p <+: g.log p :=
    fun g p => List.prefix_rfl
  cases h with
  | pipeline _ _ => exact ⟨hgrows, List.Subset.refl _, hsame _, hsame _⟩
  | send _ => exact ⟨hgrows, List.Subset.refl _, append_grows _ _ _, hsame _⟩
  | orders _ move => exact ⟨hgrows, List.Subset.refl _, move_grows move, hsame _⟩
  | deadLetters _ _ _ move => exact ⟨hgrows, List.Subset.refl _, hsame _, move_grows move⟩
  | leaves move => exact ⟨hgrows, List.Subset.refl _, hsame _, move_grows move⟩
  | fails move => exact ⟨hgrows, List.Subset.refl _, hsame _, move_grows move⟩
  | created _ _ _ move => exact ⟨hgrows, List.Subset.refl _, move_grows move, hsame _⟩
  | rolledBack _ move => exact ⟨hgrows, List.Subset.refl _, move_grows move, hsame _⟩
  | published _ move =>
    exact ⟨hgrows, List.Subset.refl _, move_grows move, append_grows _ _ _⟩
  | republished _ move =>
    exact ⟨hgrows, List.Subset.refl _, hsame _,
      fun q => (append_grows _ _ _ q).trans (move_grows move q)⟩
  | found _ _ _ _ => exact ⟨hgrows, List.Subset.refl _, hsame _, hsame _⟩
  | missing _ move => exact ⟨hgrows, List.Subset.refl _, hsame _, move_grows move⟩
  | calls _ _ _ _ => exact ⟨hgrows, List.Subset.refl _, hsame _, hsame _⟩
  | throws _ move => exact ⟨hgrows, List.Subset.refl _, hsame _, move_grows move⟩
  | returns _ _ _ _ _ => exact ⟨hgrows, List.subset_cons_self _ _, hsame _, hsame _⟩
  | acknowledges _ _ move => exact ⟨hgrows, List.Subset.refl _, hsame _, move_grows move⟩

/-! ## Records are sent messages -/

/-- Only a send adds a message. -/
theorem step_kafka {p p' : Pipeline.State} {a : Pipeline.Action}
    (ha : ∀ row withOutboxId, a ≠ .send row withOutboxId)
    (hstep : Pipeline.step rejects p a = some p') : p'.kafka = p.kafka := by
  cases a with
  | send row withOutboxId => exact absurd rfl (ha row withOutboxId)
  | configure activity accessToken => cases hstep; rfl
  | crash i => cases hstep; rfl
  | claimRelayBatch ids owner leaseUntil now => cases hstep; rfl
  | markSentBatch ids owner nextCheckTime now => cases hstep; rfl
  | scheduleRetryBatch ids owner nextRetryTime lastError now => cases hstep; rfl
  | seckill call =>
    simp only [Pipeline.step] at hstep
    split at hstep <;> cases hstep
    rfl
  | fetch i v limit now =>
    simp only [Pipeline.step] at hstep
    split at hstep <;> cases hstep
    rfl
  | relayTask i =>
    simp only [Pipeline.step] at hstep
    split at hstep
    · exact absurd hstep (by simp)
    · split at hstep <;> cases hstep <;> rfl
  | accept batch now =>
    simp only [Pipeline.step] at hstep
    split at hstep
    · split at hstep <;> cases hstep <;> rfl
    · exact absurd hstep (by simp)
  | completeHandoff r =>
    simp only [Pipeline.step] at hstep
    split at hstep <;> cases hstep
    rfl
  | createOrders tx messages =>
    simp only [Pipeline.step] at hstep
    split at hstep
    · split at hstep <;> cases hstep <;> rfl
    · exact absurd hstep (by simp)
  | readDeadLetter i message =>
    simp only [Pipeline.step] at hstep
    split at hstep
    · split at hstep <;> cases hstep <;> rfl
    · exact absurd hstep (by simp)
  | readManualReview i event =>
    simp only [Pipeline.step] at hstep
    split at hstep <;> cases hstep
    rfl
  | retryLookup i =>
    simp only [Pipeline.step] at hstep
    split at hstep <;> cases hstep
    rfl
  | retryUpdate i backoff reason localNow now =>
    simp only [Pipeline.step] at hstep
    split at hstep <;> cases hstep
    rfl
  | retryThrow i =>
    simp only [Pipeline.step] at hstep
    split at hstep <;> cases hstep
    rfl
  | markManualReview i reason now =>
    simp only [Pipeline.step] at hstep
    split at hstep <;> cases hstep
    rfl
  | selectOrder i pick u v =>
    simp only [Pipeline.step] at hstep
    split at hstep <;> cases hstep
    rfl
  | cancel i =>
    simp only [Pipeline.step] at hstep
    split at hstep
    · exact absurd hstep (by simp)
    · split at hstep <;> cases hstep <;> rfl

/-- The topics and the pipeline speak of the same messages. -/
structure Links (s : State) : Prop where
  sent : ∀ m ∈ s.pipeline.kafka, ∃ p, m ∈ s.orders.log p
  orders : ∀ p, ∀ m ∈ s.orders.log p, m ∈ s.pipeline.kafka
  deadLetters : ∀ p, ∀ m ∈ s.deadLetters.log p, m ∈ s.pipeline.kafka

/-- The moves a container makes append nothing. -/
theorem container_log {g g' : Topic SeckillOrderMessage} {retries : ℕ}
    {a : Move SeckillOrderMessage} (ha : ofListener a = false)
    (hmove : g.move retries a = some g') : g'.log = g.log :=
  move_log (fun p m he => by rw [he] at ha; exact absurd ha (by simp [ofListener])) hmove

theorem Links.of_log (h : Links s) (hkafka : t.pipeline.kafka = s.pipeline.kafka)
    (horders : t.orders.log = s.orders.log) (hdead : t.deadLetters.log = s.deadLetters.log) :
    Links t where
  sent m hm := horders ▸ h.sent m (hkafka ▸ hm)
  orders p m hm := hkafka ▸ h.orders p m (horders ▸ hm)
  deadLetters p m hm := hkafka ▸ h.deadLetters p m (hdead ▸ hm)

theorem Effect.links {a : Action} (hs : Links s) (h : Effect rejects config s a t) : Links t := by
  cases h with
  | pipeline free step =>
    refine hs.of_log (step_kafka (fun row w he => ?_) step) rfl rfl
    rw [he] at free
    exact absurd free (by simp [elsewhere])
  | send step =>
    rename_i row withOutboxId p
    have hkafka : p.kafka = row.toMessage withOutboxId :: s.pipeline.kafka := by
      simp only [Pipeline.step] at step
      split at step <;> cases step
      rfl
    refine ⟨fun m hm => ?_, fun q m hm => ?_, fun q m hm => ?_⟩
    · rcases List.mem_cons.mp (hkafka ▸ hm) with rfl | hm
      · exact ⟨_, mem_append_log.mpr (Or.inr ⟨rfl, rfl⟩)⟩
      · obtain ⟨q, hq⟩ := hs.sent m hm
        exact ⟨q, mem_append_log.mpr (Or.inl hq)⟩
    · rw [hkafka]
      rcases mem_append_log.mp hm with hm | ⟨-, rfl⟩
      · exact List.mem_cons_of_mem _ (hs.orders q m hm)
      · exact List.mem_cons_self
    · rw [hkafka]
      exact List.mem_cons_of_mem _ (hs.deadLetters q m hm)
  | orders container move => exact hs.of_log rfl (container_log container move) rfl
  | deadLetters container _ _ move => exact hs.of_log rfl rfl (container_log container move)
  | leaves move => exact hs.of_log rfl rfl (move_log (by simp) move)
  | fails move => exact hs.of_log rfl rfl (move_log (by simp) move)
  | created _ step _ move =>
    exact hs.of_log (step_kafka (by simp) step) (move_log (by simp) move) rfl
  | rolledBack step move =>
    exact hs.of_log (step_kafka (by simp) step) (move_log (by simp) move) rfl
  | published next move =>
    obtain ⟨batch, k, i, -, -, hm⟩ := nextToRecover_eq_some next
    have hlog := ofRecoverer_log move
    refine ⟨hlog ▸ hs.sent, hlog ▸ hs.orders, fun q x hx => ?_⟩
    rcases mem_append_log.mp hx with hx | ⟨-, rfl⟩
    · exact hs.deadLetters q x hx
    · exact hs.orders _ _ (mem_log_of_record hm)
  | republished next move =>
    obtain ⟨batch, k, i, -, -, hm⟩ := nextToRecover_eq_some next
    refine ⟨hs.sent, hs.orders, fun q x hx => ?_⟩
    rcases mem_append_log.mp (ofRecoverer_log move ▸ hx) with hx | ⟨-, rfl⟩
    · exact hs.deadLetters q x hx
    · exact hs.deadLetters _ _ (mem_log_of_record hm)
  | found _ _ step _ => exact hs.of_log (step_kafka (by simp) step) rfl rfl
  | missing step move => exact hs.of_log (step_kafka (by simp) step) rfl (move_log (by simp) move)
  | calls _ process step _ =>
    exact hs.of_log (step_kafka (fun row w he => by simp [he, recoveryOf] at process) step) rfl rfl
  | throws step move => exact hs.of_log (step_kafka (by simp) step) rfl (move_log (by simp) move)
  | returns _ process _ step _ =>
    exact hs.of_log (step_kafka (fun row w he => by simp [he, recoveryOf] at process) step) rfl rfl
  | acknowledges _ _ move => exact hs.of_log rfl rfl (move_log (by simp) move)

end Hmdp.Delivery
