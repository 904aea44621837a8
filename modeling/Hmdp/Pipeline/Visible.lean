import Hmdp.Model.OrderStatus
import Hmdp.Pipeline.Custody

/-!
# Whether an accepted order is visible to its owner

An accepted order moves from the accepted hash to the outbox, and a query reads the outbox before
the hash. A hand-over that commits after the one read and is completed before the other takes the
order past the query: it answers that there is no such order. Nothing else does. An outbox row and
an order row stay once they are there, and the hash keeps an order until a hand-over of it is
completed, so a query between whose last two reads no hand-over of its order is completed finds
the order in one of the three places.

* `step_accepted`: what a step can do to the accepted hash.
* **`visible_to_owner`**: the answer of every such query.
-/

namespace Hmdp.Pipeline.Visible

open Hmdp.Lib Hmdp.Model Hmdp.Pipeline

/-! ## The machine -/

/-- The pipeline, and the status queries of its users. -/
structure State where
  pipeline : Pipeline.State
  queries : ℕ → Option StatusQuery

/-- The steps of the pipeline, and those of a status query. -/
inductive Action where
  | pipeline (action : Pipeline.Action)
  /-- `querySeckillOrderStatus` is called -/
  | ask (query : ℕ) (orderId : OrderId) (userId : UserId)
  /-- the query makes its next read -/
  | read (query : ℕ)

/-- One step; `none` where the query is not where the action needs it. -/
def step (rejects : Reservation → Bool) (s : State) : Action → Option State
  | .pipeline action =>
    (Pipeline.step rejects s.pipeline action).map fun p => { s with pipeline := p }
  | .ask i orderId userId =>
    match s.queries i with
    | some _ => none
    | none =>
      some { s with queries := Function.update s.queries i (some ⟨orderId, userId, .order⟩) }
  | .read i =>
    match s.queries i with
    | none => none
    | some q =>
      let next := q.advance s.pipeline.redis s.pipeline.db
      some { s with queries := Function.update s.queries i (some next) }

/-- The orders whose hand-over the action completes: `ZREM` and `HDEL`. -/
def handsOver (s : Pipeline.State) : Pipeline.Action → List OrderId
  | .relayTask i =>
    match s.relays i with
    | .complete _ events _ :: _ => events.map fun e => e.orderId
    | _ => []
  | .completeHandoff r => [r.orderId]
  | _ => []

/-- The step does not complete the hand-over of the order while the query `i` has read the outbox
and not yet the accepted hash. -/
def Undisturbed (i : ℕ) (s : State) : Action → Prop
  | .pipeline action =>
    ∀ q ∈ s.queries i, q.phase = .accepted → q.orderId ∉ handsOver s.pipeline action
  | _ => True

instance (i : ℕ) (s : State) (a : Action) : Decidable (Undisturbed i s a) := by
  cases a <;> unfold Undisturbed <;> infer_instance

variable {rejects : Reservation → Bool}

/-! ## The accepted hash -/

/-- What a step does to the field of an order in the accepted hash. -/
inductive FieldEffect (s t : Pipeline.State) (a : Pipeline.Action) (o : OrderId) : Prop
  | kept (field : t.redis.accepted o = s.redis.accepted o)
  | reserved (r : Reservation) (granted : r ∈ t.granted) (order : r.orderId = o)
      (field : t.redis.accepted o = some (acceptedValue r))
  | completed (order : o ∈ handsOver s a) (field : t.redis.accepted o = none)

theorem accepted_handoffComplete (v : VoucherId) (arguments : List (Text × OrderId))
    (redis : Redis) (o : OrderId) :
    (handoffComplete v arguments redis).2.accepted o =
      if o ∈ arguments.map Prod.snd then none else redis.accepted o := by
  rw [(handoffComplete_snd v arguments redis).2]

/-- Only the completion of a hand-over removes a field. -/
theorem accepted_runTask {task : RelayTask} {more : List RelayTask} {redis redis' : Redis}
    {db db' : Db} (h : runTask rejects task redis db = some (more, redis', db')) (o : OrderId) :
    redis'.accepted o = redis.accepted o ∨
      ∃ v events members, task = .complete v events members ∧
        o ∈ events.map (fun e => e.orderId) ∧ redis'.accepted o = none := by
  rcases runTask_redis h with rfl | ⟨v, m, reason, -, rfl⟩ | ⟨v, events, members, rfl, rfl⟩
  · exact Or.inl rfl
  · rcases handoffQuarantine_cases v m reason redis with ⟨-, heq⟩ | ⟨-, heq⟩ <;>
      exact Or.inl (by rw [heq])
  · rw [accepted_handoffComplete]
    split
    · rename_i ho
      obtain ⟨p, hp, rfl⟩ := List.mem_map.mp ho
      exact Or.inr ⟨v, events, members, rfl, (List.of_mem_zip hp).2, rfl⟩
    · exact Or.inl rfl

/-- **What a step can do to the accepted hash.** -/
theorem step_accepted {s t : Pipeline.State} {a : Pipeline.Action}
    (hstep : Pipeline.step rejects s a = some t) (o : OrderId) : FieldEffect s t a o := by
  cases a with
  | seckill c =>
    simp only [Pipeline.step] at hstep
    split at hstep
    · exact absurd hstep (by simp)
    rcases seckillLua_cases c s.redis with ⟨hcode, hnew⟩ | ⟨hcode, n, -, -, -, -, hnew⟩
    · rw [if_neg hcode, hnew] at hstep
      cases hstep
      exact .kept rfl
    · rw [if_pos hcode, hnew] at hstep
      cases hstep
      by_cases ho : c.orderId = o
      · subst ho
        exact .reserved c.reservation List.mem_cons_self rfl (by simp [Redis.reserve])
      · exact .kept (by simp [Redis.reserve, Function.update_of_ne (Ne.symm ho)])
  | relayTask i =>
    simp only [Pipeline.step] at hstep
    split at hstep
    · exact absurd hstep (by simp)
    rename_i task rest hi
    split at hstep
    · cases hstep
      exact .kept rfl
    · rename_i hrun
      cases hstep
      rcases accepted_runTask hrun o with hkept | ⟨v, events, members, rfl, ho, hnone⟩
      · exact .kept hkept
      · exact .completed (by simpa [handsOver, hi] using ho) hnone
  | completeHandoff r =>
    simp only [Pipeline.step] at hstep
    split at hstep
    · cases hstep
      have hfield := accepted_handoffComplete r.voucherId [(r.member, r.orderId)] s.redis o
      by_cases ho : o = r.orderId
      · exact .completed (by simp [handsOver, ho]) (hfield.trans (by simp [ho]))
      · exact .kept (hfield.trans (by simp [ho]))
    · exact absurd hstep (by simp)
  | cancel i =>
    simp only [Pipeline.step] at hstep
    split at hstep
    · exact absurd hstep (by simp)
    split at hstep
    · cases hstep
      exact .kept rfl
    · rename_i hc
      cases hstep
      obtain ⟨d, -, hrest⟩ := Option.bind_eq_some_iff.mp hc
      simp only at hrest
      split at hrest
      · exact absurd hrest (by simp)
      · rename_i order _ redis' db' _ _
        simp only [Option.some.injEq, Prod.mk.injEq] at hrest
        obtain ⟨rfl, -⟩ := hrest
        rcases cancelLua_cases order.voucherId order.userId s.redis with
          ⟨-, heq⟩ | ⟨n, -, -, heq⟩ <;> exact .kept (by rw [heq])
  | configure activity accessToken =>
    cases hstep
    exact .kept rfl
  | _ => exact .kept (by rw [step_redis rfl hstep])

/-! ## What the stores have of an accepted order -/

/-- The fields of the accepted hash are those of accepted orders. -/
def Fields (s : Pipeline.State) : Prop :=
  ∀ o value, s.redis.accepted o = some value →
    ∃ r ∈ s.granted, r.orderId = o ∧ value = acceptedValue r

theorem fields_step {s t : Pipeline.State} {a : Pipeline.Action} (hs : Coherent rejects s)
    (h : Fields s) (hstep : Pipeline.step rejects s a = some t) : Fields t := by
  intro o value hvalue
  cases step_accepted hstep o with
  | kept field =>
    obtain ⟨r, hr, hid, hval⟩ := h o value (field.symm.trans hvalue)
    exact ⟨r, granted_step hs hstep hr, hid, hval⟩
  | reserved r granted order field =>
    exact ⟨r, granted, order, Option.some.inj (hvalue.symm.trans field)⟩
  | completed order field => exact absurd (hvalue.symm.trans field) (by simp)

/-- An order that is not in the outbox is in the accepted hash. -/
theorem accepted_of_not_inOutbox {s : Pipeline.State} {r : Reservation} (hs : Coherent rejects s)
    (h : Fields s) (hr : r ∈ s.granted) (hout : ¬InOutbox s.db r) :
    s.redis.accepted r.orderId = some (acceptedValue r) := by
  have hplace : InHandoff s.redis r ∨ InQuarantine s.redis r := by
    rcases hs.custody r hr with hc | hc | hc
    · exact Or.inl hc
    · exact Or.inr hc
    · exact absurd hc hout
  obtain ⟨value, hvalue⟩ :=
    Option.isSome_iff_exists.mp ((hs.accepted r.orderId).mpr ⟨r, hr, rfl, hplace⟩)
  obtain ⟨r', hr', hid, rfl⟩ := h _ _ hvalue
  rw [hs.unique hr' hr hid] at hvalue
  exact hvalue

/-- The order row of an accepted order is its buyer's. -/
theorem user_of_order {s : Pipeline.State} {r : Reservation} (hs : Coherent rejects s)
    (hr : r ∈ s.granted) {order : VoucherOrder} (ho : selectById r.orderId s.db = some order) :
    order.userId = r.userId := by
  have hid : order.id = r.orderId := by simpa using List.find?_some ho
  obtain ⟨r', hr', hid', hu, -⟩ := hs.orders order (List.mem_of_find?_eq_some ho)
  rw [← hu, hs.unique (hs.granted_of_inOutbox hr') hr (hid'.trans hid)]

/-- The outbox row of an accepted order is its buyer's. -/
theorem user_of_outbox {s : Pipeline.State} {r : Reservation} (hs : Coherent rejects s)
    (hr : r ∈ s.granted) {row : OutboxRow} (ho : findByOrderId r.orderId s.db = some row) :
    row.userId = r.userId := by
  have hid : row.orderId = r.orderId := by simpa using List.find?_some ho
  have hrow := (hs.outbox row (List.mem_of_find?_eq_some ho)).1
  exact congrArg Reservation.userId (hs.unique hrow hr hid)

theorem not_inOutbox_of_findByOrderId {db : Db} {r : Reservation}
    (h : findByOrderId r.orderId db = none) : ¬InOutbox db r := by
  rintro ⟨e, he, rfl⟩
  simpa [SeckillOrderOutboxEvent.reservation] using List.find?_eq_none.mp h e he

/-! ## The query of an accepted order -/

/-- What the query of an accepted order will find, or has found. -/
def Sees (redis : Redis) (r : Reservation) : QueryPhase → Prop
  | .order => True
  | .outbox => True
  | .accepted => redis.accepted r.orderId = some (acceptedValue r)
  | .answered answer => ¬answer.missing

/-- A read of the query of an accepted order. -/
theorem sees_advance {s : Pipeline.State} {r : Reservation} {phase : QueryPhase}
    (hs : Coherent rejects s) (hf : Fields s) (hr : r ∈ s.granted) (h : Sees s.redis r phase) :
    ∃ next, StatusQuery.advance ⟨r.orderId, r.userId, phase⟩ s.redis s.db =
      ⟨r.orderId, r.userId, next⟩ ∧ Sees s.redis r next := by
  cases phase with
  | order =>
    cases ho : selectById r.orderId s.db with
    | none => exact ⟨.outbox, by simp [StatusQuery.advance, ho], trivial⟩
    | some order =>
      refine ⟨.answered (orderAnswer r.userId order), by simp [StatusQuery.advance, ho], ?_⟩
      rw [← user_of_order hs hr ho]
      exact orderAnswer_owner order
  | outbox =>
    cases ho : findByOrderId r.orderId s.db with
    | none =>
      exact ⟨.accepted, by simp [StatusQuery.advance, ho],
        accepted_of_not_inOutbox hs hf hr (not_inOutbox_of_findByOrderId ho)⟩
    | some row =>
      refine ⟨.answered (outboxAnswer r.userId row), by simp [StatusQuery.advance, ho], ?_⟩
      rw [← user_of_outbox hs hr ho]
      exact outboxAnswer_owner row
  | accepted =>
    refine ⟨_, rfl, ?_⟩
    have hfield : s.redis.accepted r.orderId = some (acceptedValue r) := h
    simp only [hfield]
    exact acceptedAnswer_owner r
  | answered answer => exact ⟨_, rfl, h⟩

/-- The query `i` is of an accepted order, by its buyer. -/
structure Watched (rejects : Reservation → Bool) (i : ℕ) (r : Reservation) (s : State) : Prop where
  coherent : Coherent rejects s.pipeline
  fields : Fields s.pipeline
  granted : r ∈ s.pipeline.granted
  query : ∃ phase, s.queries i = some ⟨r.orderId, r.userId, phase⟩ ∧ Sees s.pipeline.redis r phase

variable {i : ℕ} {r : Reservation} {s t : State}

/-- What the query will find stays where it is, unless a hand-over of the order is completed. -/
theorem sees_step {p : Pipeline.State} {a : Pipeline.Action} {phase : QueryPhase}
    (hs : Coherent rejects s.pipeline) (hr : r ∈ s.pipeline.granted)
    (h : Sees s.pipeline.redis r phase)
    (hquiet : phase = .accepted → r.orderId ∉ handsOver s.pipeline a)
    (hstep : Pipeline.step rejects s.pipeline a = some p) : Sees p.redis r phase := by
  cases phase with
  | order => trivial
  | outbox => trivial
  | answered answer => exact h
  | accepted =>
    have hfield : s.pipeline.redis.accepted r.orderId = some (acceptedValue r) := h
    cases step_accepted hstep r.orderId with
    | kept field => exact field.trans hfield
    | completed order field => exact absurd order (hquiet rfl)
    | reserved r' granted order field =>
      have hunique := (coherent_step hs hstep).unique granted (granted_step hs hstep hr) order
      exact field.trans (by rw [hunique])

theorem watched_step {a : Action} (ha : Undisturbed i s a) (h : Watched rejects i r s)
    (hstep : step rejects s a = some t) : Watched rejects i r t := by
  obtain ⟨phase, hq, hsees⟩ := h.query
  cases a with
  | pipeline action =>
    obtain ⟨p, hp, rfl⟩ := Option.map_eq_some_iff.mp hstep
    refine ⟨coherent_step h.coherent hp, fields_step h.coherent h.fields hp,
      granted_step h.coherent hp h.granted, phase, hq, ?_⟩
    exact sees_step h.coherent h.granted hsees (fun hphase => ha _ hq hphase) hp
  | ask j orderId userId =>
    simp only [step] at hstep
    split at hstep
    · exact absurd hstep (by simp)
    rename_i hj
    cases hstep
    have hne : i ≠ j := fun heq => absurd (hj.symm.trans (heq ▸ hq)) (by simp)
    exact ⟨h.coherent, h.fields, h.granted, phase, (Function.update_of_ne hne _ _).trans hq, hsees⟩
  | read j =>
    simp only [step] at hstep
    split at hstep
    · exact absurd hstep (by simp)
    rename_i q hj
    cases hstep
    by_cases hij : i = j
    · subst hij
      cases hq.symm.trans hj
      obtain ⟨next, hnext, hsees'⟩ := sees_advance h.coherent h.fields h.granted hsees
      exact ⟨h.coherent, h.fields, h.granted, next, by simp [hnext], hsees'⟩
    · exact ⟨h.coherent, h.fields, h.granted, phase, (Function.update_of_ne hij _ _).trans hq,
        hsees⟩

/-! ## Runs -/

/-- The pipeline of a run stays coherent. -/
theorem coherent_run {as : List Action} (hs : Coherent rejects s.pipeline ∧ Fields s.pipeline)
    (hrun : run (step rejects) s as = some t) :
    Coherent rejects t.pipeline ∧ Fields t.pipeline := by
  refine run_invariant' (I := fun s => Coherent rejects s.pipeline ∧ Fields s.pipeline)
    (fun s a t hs hstep => ?_) hs hrun
  cases a with
  | pipeline action =>
    obtain ⟨p, hp, rfl⟩ := Option.map_eq_some_iff.mp hstep
    exact ⟨coherent_step hs.1 hp, fields_step hs.1 hs.2 hp⟩
  | ask j orderId userId =>
    simp only [step] at hstep
    split at hstep <;> cases hstep
    exact hs
  | read j =>
    simp only [step] at hstep
    split at hstep <;> cases hstep
    exact hs

/-- **What the owner of an accepted order is told.** The order has been accepted when the query is
asked; then whatever runs between its reads, the query never answers that there is no such order,
as long as no hand-over of the order is completed between its read of the outbox and its read of
the accepted hash. -/
theorem visible_to_owner (rejects : Reservation → Bool) {s₀ s t : State} {as bs : List Action}
    {i : ℕ} {r : Reservation} (hstart : Start s₀.pipeline)
    (hbefore : run (step rejects) s₀ as = some s) (hgranted : r ∈ s.pipeline.granted)
    (hrun : run (step rejects) s (.ask i r.orderId r.userId :: bs) = some t)
    (hquiet : Along (step rejects) (Undisturbed i) s (.ask i r.orderId r.userId :: bs)) :
    ∃ q, t.queries i = some q ∧ q.orderId = r.orderId ∧ q.userId = r.userId ∧
      ∀ answer, q.phase = .answered answer → ¬answer.missing := by
  have hs := coherent_run ⟨hstart.coherent, fun o value hv => absurd hv (by simp [hstart.accepted])⟩
    hbefore
  obtain ⟨u, hask, hbs⟩ := run_cons.mp hrun
  have hu : Watched rejects i r u := by
    simp only [step] at hask
    split at hask <;> cases hask
    exact ⟨hs.1, hs.2, hgranted, .order, by simp, trivial⟩
  have ht : Watched rejects i r t :=
    run_invariant (fun _ _ _ ha h hstep => watched_step ha h hstep) (hquiet.2 u hask) hu hbs
  obtain ⟨phase, hq, hsees⟩ := ht.query
  refine ⟨_, hq, rfl, rfl, fun answer hanswer => ?_⟩
  have hphase : phase = .answered answer := hanswer
  subst hphase
  exact hsees

/-- Voucher 7 is on sale and nobody has asked anything. -/
def onSale (n : ℤ) : State := ⟨Pipeline.onSale n, fun _ => none⟩

/-- Order 1 of user 5 has been accepted. -/
def bought : State :=
  (run (step fun _ => false) (onSale 2) [.pipeline (buy 1 5)]).get (by decide +kernel)

/-- A relay hands the order over, between two reads of the query. -/
def handedOver (before after : List Action) : List Action :=
  before ++ relayOne.map .pipeline ++ after

/-- The whole hand-over falls between the first and the second read. -/
theorem visible_to_owner_handed_over : ∃ t,
    run (step fun _ => false) bought (.ask 0 1 5 :: handedOver [.read 0] [.read 0]) = some t ∧
      ∃ q, t.queries 0 = some q ∧ q.orderId = 1 ∧ q.userId = 5 ∧
        ∀ answer, q.phase = .answered answer → ¬answer.missing := by
  obtain ⟨t, ht⟩ := Option.isSome_iff_exists.mp
    (show (run (step fun _ => false) bought
      (.ask 0 1 5 :: handedOver [.read 0] [.read 0])).isSome = true by decide +kernel)
  exact ⟨t, ht, visible_to_owner (fun _ => false) (r := ⟨1, 7, 5, false⟩) (start_onSale 2)
    (Option.some_get _).symm (by decide +kernel) ht (by decide +kernel)⟩

/-- **The law fails**: the hand-over falls between the second and the third read. -/
theorem accepted_order_not_visible :
    ¬∀ (rejects : Reservation → Bool) (s t : State) (as bs : List Action) (i : ℕ) (r : Reservation),
      run (step rejects) (onSale 2) as = some s → r ∈ s.pipeline.granted →
      run (step rejects) s (.ask i r.orderId r.userId :: bs) = some t →
      ∀ q answer, t.queries i = some q → q.phase = .answered answer → ¬answer.missing := by
  intro h
  obtain ⟨t, ht, hq⟩ : ∃ t,
      run (step fun _ => false) bought
          (.ask 0 1 5 :: handedOver [.read 0, .read 0] [.read 0]) = some t ∧
        t.queries 0 = some ⟨1, 5, .answered .nowhere⟩ :=
    Option.map_eq_some_iff.mp (show (run (step fun _ => false) bought
      (.ask 0 1 5 :: handedOver [.read 0, .read 0] [.read 0])).map (fun t => t.queries 0) =
        some (some ⟨1, 5, .answered .nowhere⟩) by decide +kernel)
  exact h (fun _ => false) bought t [.pipeline (buy 1 5)] _ 0 ⟨1, 7, 5, false⟩
    (Option.some_get _).symm (by decide +kernel) ht _ _ hq rfl (Or.inr rfl)

end Hmdp.Pipeline.Visible
