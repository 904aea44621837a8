import Hmdp.Delivery.Effect

/-!
# No message is lost between the topics

Offsets are committed behind work only: behind a committed transaction of `createOrders`, behind the
broker's answer for a record published to the dead-letter topic, behind the return of
`recoverDeadLetter`. Listeners fail, answers get lost, members leave and partitions move at any
point in between; what was in memory then is polled again.

* `Effect.sound_orders`: below the committed offset of the seckill topic the order is persisted,
  its dead letter recovered, or the record is on the dead-letter topic.
* `Effect.frames`: the dead-letter listener has settled what is before its cursor.
* `Effect.sound_deadLetters`: below the committed offset of the dead-letter topic a record is
  settled, or written again further on.
* **`no_message_lost`**: whatever was ever sent is settled or still to be delivered.
-/

namespace Hmdp.Delivery

open Hmdp.Lib Hmdp.Lib.ConsumerGroup Hmdp.Model Hmdp.Pipeline

variable {rejects : Reservation → Bool} {config : ListenerConfig} {s t : State}

/-! ## The seckill topic -/

/-- A transaction that returns has persisted the order of each of its messages. -/
theorem createOrders_persists {tx : Transaction} {messages : List SeckillOrderMessage}
    {os : List OrderDraft} {db db' : Db} (h : createOrders tx messages db = .ok (os, db'))
    {m : SeckillOrderMessage} (hm : m ∈ messages) :
    ∃ o, m.orderId = some o ∧ db'.hasOrder o = true := by
  obtain ⟨c, -, hc, -⟩ := createOrders_ok h
  obtain ⟨o, ho⟩ := Option.isSome_iff_exists.mp ((collect_ok_iff.mp ⟨c, hc⟩).complete m hm)
  obtain ⟨u, hu, hid⟩ := exists_uniqueOrder (mem_drafts.mpr ⟨m, hm, ho⟩)
  obtain ⟨row, hrow, hrid, -⟩ := createOrders_row h (createOrders_returns h ▸ hu)
  refine ⟨o.id, ?_, Db.hasOrder_iff.mpr ⟨row, hrow, hrid.trans hid⟩⟩
  unfold SeckillOrderMessage.draft at ho
  split at ho
  · rename_i horder _ _
    cases ho
    exact horder
  · exact absurd ho (by simp)

/-- The moves a container makes deal with no record. -/
theorem container_claims {g : Topic SeckillOrderMessage} {a : Move SeckillOrderMessage}
    (ha : ofListener a = false) {o : ℕ × ℕ} : o ∉ g.claims a := by
  cases a with
  | listened c => exact absurd ha (by simp [ofListener])
  | recovered c => exact absurd ha (by simp [ofListener])
  | _ => simp [Topic.claims]

/-- **Its group commits behind its work.** -/
theorem Effect.sound_orders {a : Action} (hs : Coherent rejects s.pipeline)
    (h : Sound (OrderDone s) s.orders) (he : Effect rejects config s a t) :
    Sound (OrderDone t) t.orders := by
  have hlater := he.later hs
  have hmono : Sound (OrderDone t) s.orders := h.mono fun p i => hlater.orderDone
  cases he with
  | pipeline _ _ => exact hmono
  | send _ => exact hmono.append _ _
  | orders container move =>
    exact sound_move hmono move fun p i hi => absurd hi (container_claims container)
  | deadLetters _ _ _ _ => exact hmono
  | leaves _ => exact hmono
  | fails _ => exact hmono
  | created listener step ok move =>
    rename_i c tx batch p os db g
    obtain ⟨failures, hduty⟩ := running_eq_some listener
    have hdb : p.db = db := by
      simp only [Pipeline.step, ok] at step
      split at step <;> cases step
      rfl
    refine sound_move hmono move fun q i hi => ?_
    simp only [Topic.claims, hduty, Duty.batch] at hi
    obtain ⟨m, hm⟩ := exists_record (by
      have hpolled := (h.members c).polled
      rwa [hduty] at hpolled) hi
    obtain ⟨o, ho, hrow⟩ := createOrders_persists ok (List.mem_filterMap.mpr ⟨_, hi, hm⟩)
    exact ⟨m, record_of_grown hlater.orders hm, Or.inl (Or.inl ⟨o, ho, hdb ▸ hrow⟩)⟩
  | rolledBack _ move => exact sound_move hmono move (by simp [Topic.claims])
  | published next move =>
    obtain ⟨batch, k, i, hduty, hnext, hm⟩ := nextToRecover_eq_some next
    refine sound_move hmono move fun q j hj => ?_
    cases ofRecoverer_claims hduty hnext hj
    exact ⟨_, record_of_grown hlater.orders hm,
      Or.inr ⟨_, mem_append_log.mpr (Or.inr ⟨rfl, rfl⟩)⟩⟩
  | republished _ _ => exact hmono
  | found _ _ _ _ => exact hmono
  | missing _ _ => exact hmono
  | calls _ _ _ _ => exact hmono
  | throws _ _ => exact hmono
  | returns _ _ _ _ _ => exact hmono
  | acknowledges _ _ _ => exact hmono

/-! ## The dead-letter listener -/

/-- A recovery call of the listener for the message. -/
def OfDeadLetter (m : SeckillOrderMessage) : Recovery → Prop
  | .read event deadLetter => deadLetter = true ∧ m.orderId = some event.orderId
  | .looked event deadLetter _ => deadLetter = true ∧ m.orderId = some event.orderId
  | .failed event => m.orderId = some event.orderId

/-- An update that leaves no row of the order sent. -/
theorem updateOutbox_not_sent {sel : OutboxRow → Bool} {f : OutboxUpdate} {db : Db} {o : OrderId}
    (hsel : ∀ e, e.orderId = o → e.status = .sent → sel e = true)
    (hf : ∀ e, (f.apply e).status ≠ .sent) {e : OutboxRow}
    (he : e ∈ (updateOutbox sel f db).2.outbox.rows) (ho : e.orderId = o) : e.status ≠ .sent := by
  obtain ⟨r, -, rfl⟩ := mem_updateOutbox.mp he
  by_cases hr : sel r = true
  · simp only [hr, if_true]
    exact hf r
  · simp only [hr] at ho ⊢
    exact fun hsent => hr (hsel r ho hsent)

/-- **A call on its way**: it goes on, or throws, or leaves no row of its order sent. -/
theorem call_step {p p' : Pipeline.State} {a : Pipeline.Action} {i : ℕ} {r : Recovery}
    {m : SeckillOrderMessage} (ha : recoveryOf a = some i)
    (hstep : Pipeline.step rejects p a = some p') (hr : p.recoveries i = some r)
    (hm : OfDeadLetter m r) :
    (∃ r', p'.recoveries i = some r' ∧ OfDeadLetter m r') ∨
      p'.recoveries i = none ∧ (a = .retryThrow i ∨
        ∀ e ∈ p'.db.outbox.rows, m.orderId = some e.orderId → e.status ≠ .sent) := by
  cases a with
  | retryLookup j =>
    cases ha
    simp only [Pipeline.step, hr] at hstep
    split at hstep
    · rename_i event deadLetter hcase
      cases hcase
      cases hstep
      exact Or.inl ⟨_, Function.update_self .., hm⟩
    · exact absurd hstep (by simp)
  | retryUpdate j backoff reason localNow now =>
    cases ha
    simp only [Pipeline.step, hr] at hstep
    split at hstep
    · rename_i event deadLetter orderExists hcase
      cases hcase
      cases hstep
      obtain ⟨hdead, horder⟩ := hm
      subst hdead
      simp only [Function.update_self]
      split
      · refine Or.inr ⟨rfl, Or.inr fun e he ho => ?_⟩
        have hid : e.orderId = event.orderId := Option.some.inj (ho.symm.trans horder)
        unfold retryUpdate at he
        split at he
        · refine updateOutbox_not_sent (fun e ho hsent => ?_) (fun e => ?_) he hid
          · simp [ho, OutboxRow.backlog, hsent]
          · simp [OutboxUpdate.completed]
        · refine updateOutbox_not_sent (fun e ho hsent => ?_) (fun e => by simp) he hid
          simp [ho, hsent]
      · exact Or.inl ⟨.failed event, rfl, horder⟩
    · exact absurd hstep (by simp)
  | retryThrow j =>
    cases ha
    simp only [Pipeline.step, hr] at hstep
    cases hstep
    simp only [Function.update_self]
    cases r with
    | read event deadLetter =>
      obtain ⟨hdead, horder⟩ := hm
      subst hdead
      exact Or.inl ⟨.failed event, rfl, horder⟩
    | looked event deadLetter orderExists =>
      obtain ⟨hdead, horder⟩ := hm
      subst hdead
      exact Or.inl ⟨.failed event, rfl, horder⟩
    | failed event => exact Or.inr ⟨rfl, Or.inl trivial⟩
  | markManualReview j reason now =>
    cases ha
    simp only [Pipeline.step, hr] at hstep
    split at hstep
    · rename_i event hcase
      cases hcase
      cases hstep
      refine Or.inr ⟨Function.update_self .., Or.inr fun e he ho => ?_⟩
      have hid : e.orderId = event.orderId := Option.some.inj (ho.symm.trans hm)
      refine updateOutbox_not_sent (fun e ho hsent => ?_) (fun e => by simp) he hid
      simp [ho, hsent]
    · exact absurd hstep (by simp)
  | _ => exact absurd ha (by simp [recoveryOf])

/-- Where the listener of a member stands. -/
structure FrameOk (s : State) (c : ℕ) : Prop where
  /-- its call is for the message at its cursor -/
  call : ∀ m, (s.frames c).calling = some m →
    (∃ r, s.pipeline.recoveries (2 * c) = some r ∧ OfDeadLetter m r) ∧
      (∃ e ∈ s.pipeline.db.outbox.rows, m.orderId = some e.orderId) ∧
        ∃ batch failures, (s.deadLetters.members c).duty = .listening batch failures ∧
          (s.deadLetters.records batch)[(s.frames c).cursor]? = some m
  /-- the messages before that are settled -/
  loop : ∀ batch failures, (s.deadLetters.members c).duty = .listening batch failures →
    ∀ m ∈ (s.deadLetters.records batch).take (s.frames c).cursor, Settled s m

theorem frameOk_empty {c : ℕ} (h : s.frames c = Frame.empty) : FrameOk s c where
  call m hm := by
    rw [h] at hm
    exact absurd hm (by simp [Frame.empty])
  loop batch failures _ m hm := by
    rw [h] at hm
    simp [Frame.empty] at hm

/-- What the others do leaves it where it is. -/
theorem FrameOk.keep {c : ℕ} (h : FrameOk s c) (hlater : Later s t)
    (hdead : Sound (DeadDone s) s.deadLetters) (hframe : t.frames c = s.frames c)
    (hduty : (t.deadLetters.members c).duty = (s.deadLetters.members c).duty)
    (hcall : t.pipeline.recoveries (2 * c) = s.pipeline.recoveries (2 * c)) : FrameOk t c := by
  have hrecords : ∀ batch failures, (s.deadLetters.members c).duty = .listening batch failures →
      t.deadLetters.records batch = s.deadLetters.records batch := by
    intro batch failures hlisten
    refine records_of_grown hlater.deadLetters ?_
    have hpolled := (hdead.members c).polled
    rwa [hlisten] at hpolled
  refine ⟨fun m hm => ?_, fun batch failures hlisten m hm => ?_⟩
  · obtain ⟨hr, ⟨e, he, horder⟩, batch, failures, hlisten, hget⟩ := h.call m (hframe ▸ hm)
    obtain ⟨e', he', hres, -⟩ := hlater.grows.outbox e he
    refine ⟨hcall ▸ hr, ⟨e', he', ?_⟩, batch, failures, hduty ▸ hlisten, ?_⟩
    · rw [horder, show e'.orderId = e.orderId from congrArg Reservation.orderId hres]
    · rw [hrecords batch failures hlisten, hframe]
      exact hget
  · rw [hduty] at hlisten
    rw [hrecords batch failures hlisten, hframe] at hm
    exact hlater.settled (h.loop batch failures hlisten m hm)

theorem setFrame_of_ne {c d : ℕ} (h : d ≠ c) (frame : Frame) :
    (s.setFrame c frame).frames d = s.frames d :=
  Function.update_of_ne h _ _

theorem setFrame_self (c : ℕ) (frame : Frame) : (s.setFrame c frame).frames c = frame :=
  Function.update_self ..

/-- The process of another member. -/
theorem process_ne {a : Pipeline.Action} {c d : ℕ} (ha : a.recovery = some (2 * c)) (h : d ≠ c) :
    a.recovery ≠ some (2 * d) := by
  intro he
  have := Option.some.inj (he.symm.trans ha)
  omega

theorem recovery_of_recoveryOf {a : Pipeline.Action} {i : ℕ} (h : recoveryOf a = some i) :
    a.recovery = some i := by
  cases a with
  | retryLookup j => exact h
  | retryUpdate j backoff reason localNow now => exact h
  | retryThrow j => exact h
  | markManualReview j reason now => exact h
  | _ => exact absurd h (by simp [recoveryOf])

/-- What happens elsewhere is no step of a listener's call. -/
theorem recovery_of_elsewhere {a : Pipeline.Action} (h : elsewhere a = true) (c : ℕ) :
    a.recovery ≠ some (2 * c) := by
  intro he
  cases a with
  | readDeadLetter i message => simp [elsewhere] at h
  | readManualReview i event =>
    simp only [elsewhere, decide_eq_true_eq] at h
    simp only [Pipeline.Action.recovery, Option.some.injEq] at he
    omega
  | retryLookup i =>
    simp only [elsewhere, recoveryOf, Option.all_some, decide_eq_true_eq] at h
    simp only [Pipeline.Action.recovery, Option.some.injEq] at he
    omega
  | retryUpdate i backoff reason localNow now =>
    simp only [elsewhere, recoveryOf, Option.all_some, decide_eq_true_eq] at h
    simp only [Pipeline.Action.recovery, Option.some.injEq] at he
    omega
  | retryThrow i =>
    simp only [elsewhere, recoveryOf, Option.all_some, decide_eq_true_eq] at h
    simp only [Pipeline.Action.recovery, Option.some.injEq] at he
    omega
  | markManualReview i reason now =>
    simp only [elsewhere, recoveryOf, Option.all_some, decide_eq_true_eq] at h
    simp only [Pipeline.Action.recovery, Option.some.injEq] at he
    omega
  | _ => simp [Pipeline.Action.recovery] at he

/-- A container's move waits for the listener of the member it moves. -/
theorem waitsFor_member {a : Move SeckillOrderMessage} (ha : ofListener a = false)
    (hgoes : ∀ c, a ≠ .leave c ∧ a ≠ .failed c) : waitsFor a = a.member := by
  cases a with
  | append p m => exact absurd ha (by simp [ofListener])
  | listened c => exact absurd ha (by simp [ofListener])
  | recovered c => exact absurd ha (by simp [ofListener])
  | leave c => exact absurd rfl (hgoes c).1
  | failed c => exact absurd rfl (hgoes c).2
  | _ => rfl

/-- A call begins with the row of its message. -/
theorem read_step {p p' : Pipeline.State} {i : ℕ} {m : SeckillOrderMessage}
    (hstep : Pipeline.step rejects p (.readDeadLetter i m) = some p')
    (hcalled : (p'.recoveries i).isSome = true) :
    (∃ r, p'.recoveries i = some r ∧ OfDeadLetter m r) ∧
      ∃ e ∈ p'.db.outbox.rows, m.orderId = some e.orderId := by
  simp only [Pipeline.step] at hstep
  split at hstep
  · rename_i hguard
    split at hstep
    · cases hstep
      rw [Option.isNone_iff_eq_none.mp hguard.2] at hcalled
      exact absurd hcalled (by simp)
    · rename_i event hevent
      cases hstep
      obtain ⟨o, ho, hfind⟩ := Option.bind_eq_some_iff.mp hevent
      have hid : event.orderId = o := by simpa using List.find?_some hfind
      have horder : m.orderId = some event.orderId := by rw [hid]; exact ho
      exact ⟨⟨_, Function.update_self .., rfl, horder⟩, event,
        List.mem_of_find?_eq_some hfind, horder⟩
  · exact absurd hstep (by simp)

/-- **A call that has returned settles its message.** -/
theorem settled_of_returned {p : Pipeline.State} {m : SeckillOrderMessage}
    (hp : Coherent rejects p) (ht : t.pipeline = p)
    (hrecovered : ⟨m, rowOfMessage m p.db⟩ ∈ t.recovered)
    (hrow : ∃ e ∈ p.db.outbox.rows, m.orderId = some e.orderId)
    (hsent : ∀ e ∈ p.db.outbox.rows, m.orderId = some e.orderId → e.status ≠ .sent) :
    Settled t m := by
  obtain ⟨e₀, he₀, horder⟩ := hrow
  obtain ⟨e, hfind⟩ : ∃ e, Model.findByOrderId e₀.orderId p.db = some e :=
    Option.isSome_iff_exists.mp (List.find?_isSome.mpr ⟨e₀, he₀, by simp⟩)
  have he := List.mem_of_find?_eq_some hfind
  have hid : e.orderId = e₀.orderId := by simpa using List.find?_some hfind
  have hrowOf : rowOfMessage m p.db = some e := by
    rw [rowOfMessage, horder]
    exact hfind
  cases hstatus : e.status with
  | pending => exact Or.inr ⟨_, hrecovered, rfl, e, hrowOf, Or.inl hstatus⟩
  | manualReview => exact Or.inr ⟨_, hrecovered, rfl, e, hrowOf, Or.inr hstatus⟩
  | sent => exact absurd hstatus (hsent e he (hid ▸ horder))
  | completed =>
    exact Or.inl ⟨e.orderId, hid ▸ horder, ht ▸ hp.completed e he hstatus⟩

/-- **The loop of the dead-letter listener** has settled the messages before its cursor. -/
theorem Effect.frames {a : Action} (hs : Coherent rejects s.pipeline)
    (hdead : Sound (DeadDone s) s.deadLetters) (h : ∀ c, FrameOk s c)
    (he : Effect rejects config s a t) (d : ℕ) : FrameOk t d := by
  have hlater := he.later hs
  cases he with
  | pipeline free step =>
    exact (h d).keep hlater hdead rfl rfl (step_recoveries (recovery_of_elsewhere free d) step)
  | send step =>
    exact (h d).keep hlater hdead rfl rfl
      (step_recoveries (by simp [Pipeline.Action.recovery]) step)
  | orders _ _ => exact (h d).keep hlater hdead rfl rfl rfl
  | deadLetters container waits goesOn move =>
    rename_i a g
    by_cases hd : a.member = some d
    · have hframe := waits d ((waitsFor_member container goesOn).trans hd)
      exact frameOk_empty hframe
    · exact (h d).keep hlater hdead rfl (congrArg Member.duty (move_others hd move)) rfl
  | leaves move =>
    rename_i c g
    by_cases hd : d = c
    · subst hd
      exact frameOk_empty (setFrame_self d _)
    · exact (h d).keep hlater hdead (setFrame_of_ne hd _)
        (congrArg Member.duty (move_others (by simpa [Move.member] using Ne.symm hd) move)) rfl
  | fails move =>
    rename_i c g
    by_cases hd : d = c
    · subst hd
      exact frameOk_empty (setFrame_self d _)
    · exact (h d).keep hlater hdead (setFrame_of_ne hd _)
        (congrArg Member.duty (move_others (by simpa [Move.member] using Ne.symm hd) move)) rfl
  | created _ step _ _ =>
    exact (h d).keep hlater hdead rfl rfl
      (step_recoveries (by simp [Pipeline.Action.recovery]) step)
  | rolledBack step _ =>
    exact (h d).keep hlater hdead rfl rfl
      (step_recoveries (by simp [Pipeline.Action.recovery]) step)
  | published next move => exact (h d).keep hlater hdead rfl rfl rfl
  | republished next move =>
    rename_i c p answered m g
    obtain ⟨batch, k, i, hduty, -⟩ := nextToRecover_eq_some next
    by_cases hd : d = c
    · subst hd
      have hwritten : ((s.deadLetters.append p m).members d).duty = .recovering batch k := hduty
      have hnolisten : ∀ b f, (g.members d).duty ≠ .listening b f := by
        intro b f hlisten
        cases answered with
        | true =>
          simp only [Move.ofRecoverer, if_true, Topic.move, hwritten] at move
          split at move <;> cases move
          simp [Topic.setDuty, Topic.setMember] at hlisten
        | false =>
          simp only [Move.ofRecoverer, Bool.false_eq_true, if_false, Topic.move, hwritten] at move
          cases move
          simp [Topic.setMember] at hlisten
      refine ⟨fun m hm => ?_, fun b f hlisten => absurd hlisten (hnolisten b f)⟩
      obtain ⟨-, -, b, f, hlisten, -⟩ := (h d).call m hm
      exact absurd (hduty.symm.trans hlisten) (by simp)
    · have hother : (Move.ofRecoverer c answered : Move SeckillOrderMessage).member ≠ some d := by
        cases answered <;> simpa [Move.ofRecoverer, Move.member] using Ne.symm hd
      have hmembers := move_others hother move
      exact (h d).keep hlater hdead rfl (congrArg Member.duty hmembers) rfl
  | found listener next step called =>
    rename_i c batch m p
    obtain ⟨failures, hduty⟩ := running_eq_some listener
    by_cases hd : d = c
    · subst hd
      obtain ⟨hread, hrow⟩ := read_step step called
      refine ⟨fun m' hm' => ?_, fun b f hlisten m' hm' => ?_⟩
      · simp only [setFrame_self, Option.some.injEq] at hm'
        subst hm'
        refine ⟨hread, hrow, batch, failures, hduty, ?_⟩
        rw [setFrame_self]
        exact next
      · rw [setFrame_self] at hm'
        exact hlater.settled ((h d).loop b f hlisten m' hm')
    · exact (h d).keep hlater hdead (setFrame_of_ne hd _) rfl
        (step_recoveries (process_ne rfl hd) step)
  | missing step move =>
    rename_i c m p g
    by_cases hd : d = c
    · subst hd
      exact frameOk_empty (setFrame_self d _)
    · exact (h d).keep hlater hdead (setFrame_of_ne hd _)
        (congrArg Member.duty (move_others (by simpa [Move.member] using Ne.symm hd) move))
        (step_recoveries (process_ne rfl hd) step)
  | calls calling process step called =>
    rename_i c a m p
    by_cases hd : d = c
    · subst hd
      obtain ⟨⟨r, hr, hof⟩, ⟨e, he, horder⟩, hrest⟩ := (h d).call m calling
      obtain ⟨e', he', hres, -⟩ := hlater.grows.outbox e he
      have hgoes : ∃ r', p.recoveries (2 * d) = some r' ∧ OfDeadLetter m r' := by
        rcases call_step process step hr hof with hgoes | ⟨hover, -⟩
        · exact hgoes
        · rw [hover] at called
          exact absurd called (by simp)
      refine ⟨fun m' hm' => ?_, fun b f hlisten m' hm' =>
        hlater.settled ((h d).loop b f hlisten m' hm')⟩
      cases calling.symm.trans hm'
      refine ⟨hgoes, ⟨e', he', ?_⟩, hrest⟩
      rw [horder, show e'.orderId = e.orderId from congrArg Reservation.orderId hres]
    · exact (h d).keep hlater hdead rfl rfl
        (step_recoveries (process_ne (recovery_of_recoveryOf process) hd) step)
  | throws step move =>
    rename_i c p g
    by_cases hd : d = c
    · subst hd
      exact frameOk_empty (setFrame_self d _)
    · exact (h d).keep hlater hdead (setFrame_of_ne hd _)
        (congrArg Member.duty (move_others (by simpa [Move.member] using Ne.symm hd) move))
        (step_recoveries (process_ne rfl hd) step)
  | returns calling process normal step ended =>
    rename_i c a m p
    by_cases hd : d = c
    · subst hd
      obtain ⟨⟨r, hr, hof⟩, ⟨e, he, horder⟩, batch, failures, hlisten, hget⟩ :=
        (h d).call m calling
      obtain ⟨e', he', hres, -⟩ := hlater.grows.outbox e he
      have hsent : ∀ e ∈ p.db.outbox.rows, m.orderId = some e.orderId → e.status ≠ .sent := by
        rcases call_step process step hr hof with ⟨r', hr', -⟩ | ⟨-, hthrow | hsent⟩
        · rw [ended] at hr'
          exact absurd hr' (by simp)
        · exact absurd hthrow normal
        · exact hsent
      have hsettled := settled_of_returned (t := ({ s with
          pipeline := p
          recovered := ⟨m, rowOfMessage m p.db⟩ :: s.recovered } : State).setFrame d
            ⟨(s.frames d).cursor + 1, none⟩) (coherent_step hs step) rfl List.mem_cons_self
        ⟨e', he', by
          rw [horder, show e'.orderId = e.orderId from congrArg Reservation.orderId hres]⟩ hsent
      refine ⟨fun m' hm' => ?_, fun b f hl m' hm' => ?_⟩
      · rw [setFrame_self] at hm'
        exact absurd hm' (by simp)
      · rw [setFrame_self, List.take_add_one] at hm'
        cases hlisten.symm.trans hl
        rcases List.mem_append.mp hm' with hm' | hm'
        · exact hlater.settled ((h d).loop batch failures hlisten m' hm')
        · have hget' := Option.mem_toList.mp hm'
          cases hget.symm.trans hget'
          exact hsettled
    · exact (h d).keep hlater hdead (setFrame_of_ne hd _) rfl
        (step_recoveries (process_ne (recovery_of_recoveryOf process) hd) step)
  | acknowledges listener through move =>
    rename_i c batch g
    by_cases hd : d = c
    · subst hd
      exact frameOk_empty (setFrame_self d _)
    · exact (h d).keep hlater hdead (setFrame_of_ne hd _)
        (congrArg Member.duty (move_others (by simpa [Move.member] using Ne.symm hd) move)) rfl

/-! ## The dead-letter topic -/

/-- **Its group commits behind its work.** -/
theorem Effect.sound_deadLetters {a : Action} (hs : Coherent rejects s.pipeline)
    (h : Sound (DeadDone s) s.deadLetters) (hframes : ∀ c, FrameOk s c)
    (he : Effect rejects config s a t) : Sound (DeadDone t) t.deadLetters := by
  have hlater := he.later hs
  have hmono : Sound (DeadDone t) s.deadLetters := h.mono fun p i => hlater.deadDone
  cases he with
  | pipeline _ _ => exact hmono
  | send _ => exact hmono
  | orders _ _ => exact hmono
  | deadLetters container _ _ move =>
    exact sound_move hmono move fun p i hi => absurd hi (container_claims container)
  | leaves move => exact sound_move hmono move (by simp [Topic.claims])
  | fails move => exact sound_move hmono move (by simp [Topic.claims])
  | created _ _ _ _ => exact hmono
  | rolledBack _ _ => exact hmono
  | published _ _ => exact hmono.append _ _
  | republished next move =>
    rename_i c p answered m g
    obtain ⟨batch, k, i, hduty, hnext, hm⟩ := nextToRecover_eq_some next
    refine sound_move (hmono.append p m) move fun q j hj => ?_
    cases ofRecoverer_claims hduty hnext hj
    refine ⟨m, record_of_grown hlater.deadLetters hm, Or.inr ⟨(s.deadLetters.log p).length,
      (List.getElem?_eq_some_iff.mp hm).1, record_of_grown (move_grows move) ?_⟩⟩
    simp [Topic.record, Topic.append]
  | found _ _ _ _ => exact hmono
  | missing _ move => exact sound_move hmono move (by simp [Topic.claims])
  | calls _ _ _ _ => exact hmono
  | throws _ move => exact sound_move hmono move (by simp [Topic.claims])
  | returns _ _ _ _ _ => exact hmono
  | acknowledges listener through move =>
    rename_i c batch g
    obtain ⟨failures, hduty⟩ := running_eq_some listener
    refine sound_move hmono move fun p i hi => ?_
    simp only [Topic.claims, hduty, Duty.batch] at hi
    obtain ⟨m, hm⟩ := exists_record (by
      have hpolled := (h.members c).polled
      rwa [hduty] at hpolled) hi
    have hmem : m ∈ s.deadLetters.records batch := List.mem_filterMap.mpr ⟨_, hi, hm⟩
    rw [← List.take_of_length_le through] at hmem
    exact ⟨m, record_of_grown hlater.deadLetters hm,
      Or.inl (hlater.settled ((hframes c).loop batch failures hduty m hmem))⟩

/-! ## Runs -/

/-- What holds in every reachable state. -/
structure Invariant (rejects : Reservation → Bool) (s : State) : Prop where
  coherent : Coherent rejects s.pipeline
  links : Links s
  orders : Sound (OrderDone s) s.orders
  deadLetters : Sound (DeadDone s) s.deadLetters
  frames : ∀ c, FrameOk s c

theorem invariant_step {a : Action} (h : Invariant rejects s)
    (hstep : step rejects config s a = some t) : Invariant rejects t where
  coherent := by
    rcases (step_effect hstep).pipeline_step with heq | ⟨b, hb⟩
    · rw [heq]
      exact h.coherent
    · exact coherent_step h.coherent hb
  links := (step_effect hstep).links h.links
  orders := (step_effect hstep).sound_orders h.coherent h.orders
  deadLetters := (step_effect hstep).sound_deadLetters h.coherent h.deadLetters h.frames
  frames := (step_effect hstep).frames h.coherent h.deadLetters h.frames

theorem Start.invariant (h : Start s) : Invariant rejects s where
  coherent := h.pipeline.coherent
  links :=
    { sent := by simp [h.pipeline.kafka]
      orders := by simp [h.orders, Topic.empty]
      deadLetters := by simp [h.deadLetters, Topic.empty] }
  orders := h.orders ▸ sound_empty
  deadLetters := h.deadLetters ▸ sound_empty
  frames c := frameOk_empty (h.frames c)

/-- The record is at or above the committed offset: whoever has the partition will be handed it. -/
def Waiting (g : Topic SeckillOrderMessage) (m : SeckillOrderMessage) : Prop :=
  ∃ p i, g.committed p ≤ i ∧ g.record (p, i) = some m

/-- A record of the dead-letter topic is settled, or its last copy is waiting. -/
theorem settled_or_waiting (h : Sound (DeadDone s) s.deadLetters) {p i : ℕ}
    {m : SeckillOrderMessage} (hm : s.deadLetters.record (p, i) = some m) :
    Settled s m ∨ Waiting s.deadLetters m := by
  -- downwards from the end of the partition: a copy below the committed offset has a later one
  induction hn : (s.deadLetters.log p).length - i using Nat.strong_induction_on generalizing i with
  | _ n ih =>
    by_cases hi : s.deadLetters.committed p ≤ i
    · exact Or.inr ⟨p, i, hi, hm⟩
    · obtain ⟨m', hm', hcase⟩ := h.committed p i (by omega)
      cases hm.symm.trans hm'
      rcases hcase with hsettled | ⟨j, hij, hj⟩
      · exact Or.inl hsettled
      · have hlt : j < (s.deadLetters.log p).length := (List.getElem?_eq_some_iff.mp hj).1
        exact ih ((s.deadLetters.log p).length - j) (by omega) hj rfl

/-- **No message is lost.** -/
theorem Invariant.settled_or_waiting (h : Invariant rejects s) {m : SeckillOrderMessage}
    (hm : m ∈ s.pipeline.kafka) :
    Settled s m ∨ Waiting s.orders m ∨ Waiting s.deadLetters m := by
  obtain ⟨p, hp⟩ := h.links.sent m hm
  obtain ⟨i, hi⟩ := List.mem_iff_getElem?.mp hp
  by_cases hc : s.orders.committed p ≤ i
  · exact Or.inr (Or.inl ⟨p, i, hc, hi⟩)
  · obtain ⟨m', hm', hcase⟩ := h.orders.committed p i (by omega)
    cases (show s.orders.record (p, i) = some m from hi).symm.trans hm'
    rcases hcase with hsettled | ⟨q, hq⟩
    · exact Or.inl hsettled
    · obtain ⟨j, hj⟩ := List.mem_iff_getElem?.mp hq
      exact (Delivery.settled_or_waiting h.deadLetters hj).imp_right Or.inr

/-- **The listeners lose no message, and the pipeline under them is the one that delivers anything
any number of times in any order.** -/
theorem no_message_lost {as : List Action} (hs : Start s)
    (hrun : run (step rejects config) s as = some t) :
    (∃ bs, run (Pipeline.step rejects) s.pipeline bs = some t.pipeline) ∧
      ∀ m ∈ t.pipeline.kafka, Settled t m ∨ Waiting t.orders m ∨ Waiting t.deadLetters m :=
  ⟨pipeline_run hrun, fun _ hm =>
    (run_invariant' (fun _ _ _ => invariant_step) hs.invariant hrun).settled_or_waiting hm⟩

/-- The listener throws twice, the answer for the dead letter is lost once, and the second copy is
committed; then one copy is recovered. -/
def throughDeadLetters : List Action :=
  [.pipeline (buy 1 5), .pipeline (.fetch 0 7 1 0), .pipeline (.relayTask 0),
    .pipeline (.relayTask 0), .send (rowOf 1 1 5) true,
    .orders (.assign 1 2), .orders (.poll 1 [⟨2, 0, 1⟩]), .orders (.failed 1), .orders (.failed 1),
    .orders (.giveUp 1), .publish false 1 false,
    .orders (.poll 1 [⟨2, 0, 1⟩]), .orders (.failed 1), .orders (.failed 1), .orders (.giveUp 1),
    .publish false 1 true, .orders (.handled 1), .orders (.commit 1),
    .deadLetters (.assign 4 2), .deadLetters (.poll 4 [⟨2, 0, 1⟩]), .findByOrderId 4,
    .recoverDeadLetter 4 (.retryLookup 8), .recoverDeadLetter 4 (.retryUpdate 8 ⟨1, 300⟩ [] 0 0),
    .onDeadLetterReturns 4, .deadLetters (.commit 4)]

theorem no_message_lost_through_dead_letters :
    ∃ t, run (step (fun _ => false) ⟨1, fun _ => 2⟩) (State.init (onSale 2)) throughDeadLetters =
        some t ∧
      (t.orders.committed 2, t.deadLetters.committed 2, (t.deadLetters.log 2).length) = (1, 1, 2) ∧
      (∃ bs, run (Pipeline.step fun _ => false) (onSale 2) bs = some t.pipeline) ∧
        ∀ m ∈ t.pipeline.kafka, Settled t m ∨ Waiting t.orders m ∨ Waiting t.deadLetters m := by
  obtain ⟨t, ht, hoffsets⟩ := Option.map_eq_some_iff.mp
    (show (run (step (fun _ => false) ⟨1, fun _ => 2⟩) (State.init (onSale 2))
        throughDeadLetters).map (fun t =>
          (t.orders.committed 2, t.deadLetters.committed 2, (t.deadLetters.log 2).length)) =
        some (1, 1, 2) by decide +kernel)
  exact ⟨t, ht, hoffsets, no_message_lost (start_init (start_onSale 2)) ht⟩

end Hmdp.Delivery
