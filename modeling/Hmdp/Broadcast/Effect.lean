import Hmdp.Broadcast.Step
import Hmdp.Shop.Coherent

/-!
# What a step does to shops, events and records

* `shop_history`, `shop_handled`, `shop_tasks`, `evict_call`: a step of the shop machine, as the
  listeners see it. `outbox_rows`, `outbox_acks`: a statement of the outbox.
* `Effect`: what each action of the whole does, once.
-/

namespace Hmdp.Broadcast

open Hmdp.Lib Hmdp.Lib.ConsumerGroup Hmdp.Model

variable {Worker Jvm Entity Relay : Type} [DecidableEq Worker] [DecidableEq Jvm]

/-! ## The shop machine -/

section

variable {x y : Shop.State (Thread Jvm Worker) Jvm Entity}
  {a : Shop.Action (Thread Jvm Worker) Jvm Entity}

omit [DecidableEq Worker] in
/-- A statement commits at most one row, of its own shop, and only where a write is to commit. -/
theorem next_history {task task' : Shop.Task Jvm Entity} {store store' : ShopStore Jvm Entity}
    {locked : Bool} (h : task.next store locked = some (store', task')) (id : ShopId) :
    store'.history id = store.history id ∨
      atCommit task.work = true ∧ id = task.shopId ∧
        ∃ row, store'.history id = store.history id ++ [row] := by
  obtain ⟨jvm, shopId, work⟩ := task
  have hcommit : ∀ row : Entity, (store.commit shopId row).history id = store.history id ∨
      id = shopId ∧ ∃ more, (store.commit shopId row).history id = store.history id ++ [more] := by
    intro row
    by_cases hid : id = shopId
    · subst hid
      exact Or.inr ⟨rfl, row, by simp [ShopStore.commit]⟩
    · exact Or.inl (by simp [ShopStore.commit, hid])
  have hevict : ∀ phase r, store.evict jvm shopId phase = some r →
      r.1.history id = store.history id := by
    intro phase r hr
    cases phase <;> cases hr <;> rfl
  cases work with
  | queryById since phase =>
    obtain ⟨r, hr, heq⟩ := Option.map_eq_some_iff.mp h
    cases heq
    exact Or.inl (congrFun (Shop.query_frame hr).1 id)
  | evict version phase =>
    obtain ⟨r, hr, heq⟩ := Option.map_eq_some_iff.mp h
    cases heq
    exact Or.inl (hevict phase r hr)
  | update patch phase =>
    obtain ⟨r, hr, heq⟩ := Option.map_eq_some_iff.mp h
    cases heq
    cases phase with
    | getById => cases hr; exact Or.inl rfl
    | commit =>
      simp only [ShopStore.update] at hr
      split at hr <;> cases hr
      · exact (hcommit _).imp_right fun hc => ⟨rfl, hc⟩
      · exact Or.inl rfl
    | waiting => exact Or.inl (hevict .waiting r hr)
    | localInvalidate => exact Or.inl (hevict .localInvalidate r hr)
    | redisDelete => exact Or.inl (hevict .redisDelete r hr)
    | returning => exact Or.inl (hevict .returning r hr)
  | saveShop shop phase =>
    obtain ⟨r, hr, heq⟩ := Option.map_eq_some_iff.mp h
    cases heq
    cases phase with
    | getById => exact Or.inl (hevict .getById r hr)
    | commit =>
      simp only [ShopStore.saveShop] at hr
      split at hr <;> cases hr
      exact (hcommit _).imp_right fun hc => ⟨rfl, hc⟩
    | waiting => exact Or.inl (hevict .waiting r hr)
    | localInvalidate => exact Or.inl (hevict .localInvalidate r hr)
    | redisDelete => exact Or.inl (hevict .redisDelete r hr)
    | returning => exact Or.inl (hevict .returning r hr)

/-- What `next` is: the return of a query, the end of a write or an eviction, or a statement. -/
theorem next_cases {th : Thread Jvm Worker} {locked : Bool}
    (h : Shop.step x (.next th locked) = some y) :
    ∃ task, x.tasks th = some task ∧
      ((∃ returns, y = { x.leave th task with returns := returns } ∧
        (task.work.finished = true ∨ task.work.result ≠ none)) ∨
      ∃ store' task', task.next x.store locked = some (store', task') ∧
        y = ((x.withStore store').markHandled task.jvm task.shopId task.work.completes).withTask th
          (some task')) := by
  simp only [Shop.step] at h
  split at h
  · cases h
  · rename_i task htask
    refine ⟨task, htask, ?_⟩
    split at h
    · rename_i hresult
      cases h
      exact Or.inl ⟨_, rfl, Or.inr (by simp [hresult])⟩
    · split at h
      · rename_i hfinished
        cases h
        exact Or.inl ⟨x.returns, rfl, Or.inl hfinished⟩
      · obtain ⟨⟨store', task'⟩, hnext, rfl⟩ := Option.map_eq_some_iff.mp h
        exact Or.inr ⟨store', task', hnext, rfl⟩

/-- **The rows a step commits**: none, or one at a commit. -/
theorem shop_history (h : Shop.step x a = some y) (id : ShopId) :
    y.store.history id = x.store.history id ∨
      ∃ th locked task row, a = .next th locked ∧ x.tasks th = some task ∧
        atCommit task.work = true ∧ id = task.shopId ∧
          y.store.history id = x.store.history id ++ [row] := by
  cases a with
  | start th jvm id call =>
    simp only [Shop.step] at h
    split at h <;> cases h
    exact Or.inl rfl
  | acquire th =>
    simp only [Shop.step] at h
    split at h
    · cases h
    · split at h
      · obtain ⟨lock, -, rfl⟩ := Option.map_eq_some_iff.mp h
        exact Or.inl rfl
      · cases h
  | next th locked =>
    obtain ⟨task, htask, ⟨returns, rfl, -⟩ | ⟨store', task', hnext, rfl⟩⟩ := next_cases h
    · exact Or.inl rfl
    · rcases next_history hnext id with hsame | ⟨hcommit, hid, row, hrow⟩
      · exact Or.inl hsame
      · exact Or.inr ⟨th, locked, task, row, rfl, htask, hcommit, hid, hrow⟩
  | throw th =>
    simp only [Shop.step] at h
    split at h <;> cases h
    exact Or.inl rfl
  | expireLocal jvm id => cases h; exact Or.inl rfl
  | expireRedis id => cases h; exact Or.inl rfl

theorem shop_history_grows (h : Shop.step x a = some y) (id : ShopId) :
    x.store.history id <+: y.store.history id := by
  rcases shop_history h id with hsame | ⟨-, -, -, row, -, -, -, -, hrow⟩
  · rw [hsame]
  · rw [hrow]
    exact List.prefix_append _ _

/-- Nothing is forgotten to have been handled. -/
theorem shop_handled (h : Shop.step x a = some y) (jvm : Jvm) (id : ShopId) :
    x.handled jvm id ≤ y.handled jvm id := by
  cases a with
  | start th jvm' id' call =>
    simp only [Shop.step] at h
    split at h <;> cases h
    exact le_rfl
  | acquire th =>
    simp only [Shop.step] at h
    split at h
    · cases h
    · split at h
      · obtain ⟨lock, -, rfl⟩ := Option.map_eq_some_iff.mp h
        exact le_rfl
      · cases h
  | next th locked =>
    obtain ⟨task, htask, ⟨returns, rfl, -⟩ | ⟨store', task', hnext, rfl⟩⟩ := next_cases h
    · exact le_rfl
    · change x.handled jvm id ≤
        (x.markHandled task.jvm task.shopId task.work.completes).handled jvm id
      rw [Shop.markHandled_apply]
      split
      · rename_i heq
        obtain ⟨rfl, rfl⟩ := heq
        exact le_max_left _ _
      · exact le_rfl
  | throw th =>
    simp only [Shop.step] at h
    split at h <;> cases h
    exact le_rfl
  | expireLocal jvm' id' => cases h; exact le_rfl
  | expireRedis id' => cases h; exact le_rfl

/-- A step moves the task of its own thread only. -/
theorem shop_tasks {th : Thread Jvm Worker} (ha : actor a ≠ some th)
    (h : Shop.step x a = some y) : y.tasks th = x.tasks th := by
  have hne : ∀ {th'}, actor a = some th' → th ≠ th' := fun he heq => ha (heq ▸ he)
  cases a with
  | start th' jvm id call =>
    simp only [Shop.step] at h
    split at h <;> cases h
    exact Function.update_of_ne (hne rfl) _ _
  | acquire th' =>
    simp only [Shop.step] at h
    split at h
    · cases h
    · split at h
      · obtain ⟨lock, -, rfl⟩ := Option.map_eq_some_iff.mp h
        exact Function.update_of_ne (hne rfl) _ _
      · cases h
  | next th' locked =>
    obtain ⟨task, htask, ⟨returns, rfl, -⟩ | ⟨store', task', hnext, rfl⟩⟩ := next_cases h
    · exact Function.update_of_ne (hne rfl) _ _
    · exact Function.update_of_ne (hne rfl) _ _
  | throw th' =>
    simp only [Shop.step] at h
    split at h <;> cases h
    exact Function.update_of_ne (hne rfl) _ _
  | expireLocal jvm id => cases h; rfl
  | expireRedis id => cases h; rfl

/-- An eviction that is about to return has been handled. -/
def Evicting (x : Shop.State (Thread Jvm Worker) Jvm Entity) (jvm : Jvm) (id : ShopId)
    (version : ℕ) (task : Shop.Task Jvm Entity) : Prop :=
  ∃ phase, task = ⟨jvm, id, .evict version phase⟩ ∧
    (phase = .returning → version ≤ x.handled jvm id)

/-- **A call of `evict` on its way**: it goes on, or throws, or its write has been handled. -/
theorem evict_call {th : Thread Jvm Worker} {jvm : Jvm} {id : ShopId} {version : ℕ}
    {task : Shop.Task Jvm Entity} (htask : x.tasks th = some task)
    (hevict : Evicting x jvm id version task) (hcall : ofCall a = true)
    (hactor : actor a = some th) (h : Shop.step x a = some y) :
    (∃ task', y.tasks th = some task' ∧ Evicting y jvm id version task') ∨
      y.tasks th = none ∧ (a = .throw th ∨ version ≤ y.handled jvm id) := by
  obtain ⟨phase, rfl, hhandled⟩ := hevict
  cases a with
  | start th' jvm' id' call => exact absurd hcall (by simp [ofCall])
  | expireLocal jvm' id' => exact absurd hcall (by simp [ofCall])
  | expireRedis id' => exact absurd hcall (by simp [ofCall])
  | throw th' =>
    cases hactor
    simp only [Shop.step, htask] at h
    cases h
    exact Or.inr ⟨Function.update_self .., Or.inl rfl⟩
  | acquire th' =>
    cases hactor
    simp only [Shop.step, htask] at h
    split at h
    · rename_i work mode hgranted hmode
      obtain ⟨lock, -, rfl⟩ := Option.map_eq_some_iff.mp h
      cases phase <;> cases hgranted
      exact Or.inl ⟨_, Function.update_self .., .localInvalidate, rfl, by simp⟩
    · cases h
  | next th' locked =>
    cases hactor
    obtain ⟨task, htask', hcase⟩ := next_cases h
    cases htask.symm.trans htask'
    rcases hcase with ⟨returns, rfl, hend⟩ | ⟨store', task', hnext, rfl⟩
    · refine Or.inr ⟨Function.update_self .., Or.inr (hhandled ?_)⟩
      cases phase <;> simp_all [Shop.Work.finished, Shop.Work.result]
    · refine Or.inl ⟨task', Function.update_self .., ?_⟩
      obtain ⟨r, hr, heq⟩ := Option.map_eq_some_iff.mp hnext
      cases heq
      cases phase <;> cases hr
      · exact ⟨.redisDelete, rfl, by simp⟩
      · refine ⟨.returning, rfl, fun _ => ?_⟩
        change version ≤ (x.markHandled jvm id version).handled jvm id
        rw [Shop.markHandled_apply, if_pos ⟨rfl, rfl⟩]
        exact le_max_right _ _

end

/-! ## The outbox -/

section

variable [DecidableEq Relay] {cfg : InvalidationRelayConfig} {o o' : Invalidation.State Relay}
  {a : Invalidation.Action Relay}

/-- The same events, as their messages say. -/
def SameEvents (t t' : InvalidationTable) : Prop :=
  (∀ r ∈ t.rows, ∃ r' ∈ t'.rows, r'.message = r.message) ∧
    ∀ r' ∈ t'.rows, ∃ r ∈ t.rows, r.message = r'.message

theorem SameEvents.refl (t : InvalidationTable) : SameEvents t t :=
  ⟨fun r hr => ⟨r, hr, rfl⟩, fun r hr => ⟨r, hr, rfl⟩⟩

theorem sameEvents_updatePending (t : InvalidationTable) (id : ℕ)
    {f : InvalidationRow → InvalidationRow} (hf : ∀ r, (f r).id = r.id)
    (hmessage : ∀ r, (f r).message = r.message) : SameEvents t (t.updatePending id f hf).2 := by
  refine ⟨fun r hr => ?_, fun r' hr' => ?_⟩
  · by_cases h : r.id = id ∧ r.status = .pending
    · exact ⟨f r, (InvalidationTable.mem_updatePending hf).mpr (Or.inr ⟨r, hr, h, rfl⟩),
        hmessage r⟩
    · exact ⟨r, (InvalidationTable.mem_updatePending hf).mpr (Or.inl ⟨hr, h⟩), rfl⟩
  · rcases (InvalidationTable.mem_updatePending hf).mp hr' with ⟨hold, -⟩ | ⟨r, hr, -, rfl⟩
    · exact ⟨r', hold, rfl⟩
    · exact ⟨r, hr, (hmessage r).symm⟩

theorem sameEvents_afterUpdate {t t' : InvalidationTable} (h : SameEvents t t')
    (reply : Reply) : SameEvents t (Invalidation.afterUpdate reply t t') := by
  cases reply with
  | returns => exact h
  | throws applied =>
    cases applied with
    | true => exact h
    | false => exact SameEvents.refl t

/-- **Only an insertion adds an event.** -/
theorem outbox_rows (h : Invalidation.step cfg o a = some o') :
    (∃ defaultReason id eventId targetId reason now,
      a = .insert defaultReason id eventId targetId reason now) ∨
      SameEvents o.table o'.table := by
  cases a with
  | insert defaultReason id eventId targetId reason now =>
    exact Or.inl ⟨defaultReason, id, eventId, targetId, reason, now, rfl⟩
  | findDispatchable relay now =>
    simp only [Invalidation.step] at h
    split at h
    · split at h <;> cases h <;> exact Or.inr (SameEvents.refl _)
    · cases h
  | send relay failure =>
    simp only [Invalidation.step] at h
    split at h
    · cases h
      exact Or.inr (SameEvents.refl _)
    · split at h <;> cases h <;> exact Or.inr (SameEvents.refl _)
    · cases h
  | markSent relay reply exception now =>
    simp only [Invalidation.step] at h
    split at h
    · rename_i e events hphase
      have hsame := sameEvents_afterUpdate
        (sameEvents_updatePending o.table e.id (f := .sent now) (fun _ => rfl) fun _ => rfl) reply
      split at h <;> cases h <;> exact Or.inr hsame
    · cases h
  | handleFailure relay reply localNow now =>
    simp only [Invalidation.step] at h
    split at h
    · rename_i e exception events hphase
      obtain ⟨f, hf, heq, hmessage⟩ := o.table.handleFailure_eq cfg e exception localNow now
      have hsame := sameEvents_afterUpdate
        (heq ▸ sameEvents_updatePending o.table e.id hf fun r => (hmessage r).1) reply
      split at h <;> cases h <;> exact Or.inr hsame
    · cases h

/-- **Only a send that is answered is acknowledged.** -/
theorem outbox_acks (h : Invalidation.step cfg o a = some o') :
    o'.acks = o.acks ∨ ∃ relay e, a = .send relay none ∧
      nextEvent (o.relays relay) = some e ∧ o'.acks = e.message :: o.acks := by
  cases a with
  | insert defaultReason id eventId targetId reason now =>
    simp only [Invalidation.step] at h
    split at h <;> cases h
    exact Or.inl rfl
  | findDispatchable relay now =>
    simp only [Invalidation.step] at h
    split at h
    · split at h <;> cases h <;> exact Or.inl rfl
    · cases h
  | send relay failure =>
    simp only [Invalidation.step] at h
    split at h
    · cases h
      exact Or.inl rfl
    · rename_i e events hphase
      split at h <;> cases h
      · exact Or.inr ⟨relay, e, rfl, by rw [hphase]; rfl, rfl⟩
      · exact Or.inl rfl
    · cases h
  | markSent relay reply exception now =>
    simp only [Invalidation.step] at h
    split at h
    · split at h <;> cases h <;> exact Or.inl rfl
    · cases h
  | handleFailure relay reply localNow now =>
    simp only [Invalidation.step] at h
    split at h
    · split at h <;> cases h <;> exact Or.inl rfl
    · cases h

omit [DecidableEq Relay] in
/-- An event that is sent is one of the table. -/
theorem nextEvent_row (hi : Invalidation.Inv cfg o) {relay : Relay} {e : InvalidationEvent}
    (h : nextEvent (o.relays relay) = some e) : ∃ r ∈ o.table.rows, r.message = e.message := by
  have hphase := hi.events relay
  cases hrelay : o.relays relay with
  | dispatching events =>
    rw [hrelay] at h hphase
    cases events with
    | nil => cases h
    | cons e' events =>
      cases h
      obtain ⟨r, hr, -, hmessage⟩ := (hphase e List.mem_cons_self).row
      exact ⟨r, hr, hmessage⟩
  | idle => rw [hrelay] at h; cases h
  | acknowledged e' events => rw [hrelay] at h; cases h
  | failed e' exception events => rw [hrelay] at h; cases h

end

/-! ## The whole -/

variable [DecidableEq Relay] {config : Config} {s t : State Worker Jvm Entity Relay}

/-- The row a write inserts. -/
def insertedRow (id : ℕ) (eventId : Text) (shopId : ShopId) (now : Time) : InvalidationRow :=
  shopCacheInvalidationPending id eventId shopId (some "shop-changed".toList) now

/-- What one step does, a constructor a case: the only thing later proofs take from `step`. -/
inductive Effect (config : Config) (s : State Worker Jvm Entity Relay) :
    Action Worker Jvm Entity Relay → State Worker Jvm Entity Relay → Prop
  | request {a : Shop.Action (Thread Jvm Worker) Jvm Entity}
      {x : Shop.State (Thread Jvm Worker) Jvm Entity} (request : ofRequest s.shops a = true)
      (step : Shop.step s.shops a = some x) :
      Effect config s (.request a) { s with shops := x }
  | unchanged {w : Worker} {id : ℕ} {eventId : Text} {now : Time}
      {task : Shop.Task Jvm Entity} {x : Shop.State (Thread Jvm Worker) Jvm Entity}
      (underWay : s.shops.tasks (.inr w) = some task)
      (step : Shop.step s.shops (.next (.inr w) true) = some x)
      (same : (x.store.history task.shopId).length = (s.shops.store.history task.shopId).length) :
      Effect config s (.commit w id eventId now) { s with shops := x }
  | committed {w : Worker} {id : ℕ} {eventId : Text} {now : Time}
      {task : Shop.Task Jvm Entity} {x : Shop.State (Thread Jvm Worker) Jvm Entity}
      (underWay : s.shops.tasks (.inr w) = some task)
      (step : Shop.step s.shops (.next (.inr w) true) = some x)
      (more : (x.store.history task.shopId).length ≠ (s.shops.store.history task.shopId).length)
      (newId : ∀ r ∈ s.outbox.table.rows, r.id ≠ id)
      (newEvent : ∀ r ∈ s.outbox.table.rows, r.eventId ≠ eventId) :
      Effect config s (.commit w id eventId now)
        { s with
          shops := x
          outbox := { s.outbox with
            table := (s.outbox.table.insertIgnore
              [insertedRow id eventId task.shopId now]).2 }
          writes := Function.update s.writes eventId (x.store.history task.shopId).length }
  | relay {a : Invalidation.Action Relay} {o : Invalidation.State Relay}
      (other : ofRelay a = true) (step : Invalidation.step config.relay s.outbox a = some o) :
      Effect config s (.relay a) { s with outbox := o }
  | written {relay : Relay} {failure : Option JavaException} {w : Bool} {e : InvalidationEvent}
      {o : Invalidation.State Relay} (next : nextEvent (s.outbox.relays relay) = some e)
      (step : Invalidation.step config.relay s.outbox (.send relay failure) = some o) :
      Effect config s (.send relay failure w)
        { s.broadcast (config.partitionOf e.message.targetId) e.message with outbox := o }
  | unwritten {relay : Relay} {failure : Option JavaException} {w : Bool}
      {o : Invalidation.State Relay}
      (failed : ∀ e, nextEvent (s.outbox.relays relay) = some e → failure ≠ none)
      (step : Invalidation.step config.relay s.outbox (.send relay failure) = some o) :
      Effect config s (.send relay failure w) { s with outbox := o }
  | group {jvm : Jvm} {a : Move InvalidationMessage} {g : Topic InvalidationMessage}
      (container : ofContainer a = true)
      (free : ∀ c, a.member = some c → s.shops.tasks (.inl (jvm, c)) = none)
      (move : (s.topics jvm).move config.retryAttempts a = some g) :
      Effect config s (.group jvm a) (s.setTopic jvm g)
  | leaves {jvm : Jvm} {c : ℕ} {g : Topic InvalidationMessage}
      (move : (s.topics jvm).move config.retryAttempts (.leave c) = some g) :
      Effect config s (.group jvm (.leave c)) ((s.leave jvm c).setTopic jvm g)
  | begins {jvm : Jvm} {c : ℕ} {batch : List Segment} {o : ℕ × ℕ} {m : InvalidationMessage}
      {x : Shop.State (Thread Jvm Worker) Jvm Entity}
      (listener : (s.topics jvm).running config.retryAttempts c = some batch)
      (single : offsets batch = [o]) (record : (s.topics jvm).record o = some m)
      (step : Shop.step s.shops (.start (.inl (jvm, c)) jvm m.targetId
        (.evict (s.writes m.eventId))) = some x) :
      Effect config s (.onMessage jvm c) { s with shops := x }
  | calls {jvm : Jvm} {c : ℕ} {a : Shop.Action (Thread Jvm Worker) Jvm Entity}
      {x : Shop.State (Thread Jvm Worker) Jvm Entity} {task : Shop.Task Jvm Entity}
      (call : ofCall a = true) (own : actor a = some (.inl (jvm, c)))
      (step : Shop.step s.shops a = some x) (underWay : x.tasks (.inl (jvm, c)) = some task) :
      Effect config s (.evict jvm c a) { s with shops := x }
  | returns {jvm : Jvm} {c : ℕ} {a : Shop.Action (Thread Jvm Worker) Jvm Entity}
      {x : Shop.State (Thread Jvm Worker) Jvm Entity} {g : Topic InvalidationMessage}
      (call : ofCall a = true) (own : actor a = some (.inl (jvm, c)))
      (step : Shop.step s.shops a = some x) (ended : x.tasks (.inl (jvm, c)) = none)
      (move : (s.topics jvm).move config.retryAttempts (listenerEnds c a) = some g) :
      Effect config s (.evict jvm c a) ({ s with shops := x }.setTopic jvm g)
  | published {jvm : Jvm} {c p : ℕ} {answered : Bool} {m : InvalidationMessage}
      {g : Topic InvalidationMessage} (next : (s.topics jvm).nextToRecover c = some (p, m))
      (move : (s.topics jvm).move config.retryAttempts (.ofRecoverer c answered) = some g) :
      Effect config s (.publish jvm c answered)
        ({ s with deadLetters := m :: s.deadLetters }.setTopic jvm g)

/-- **One effect for each step.** -/
theorem step_effect {a : Action Worker Jvm Entity Relay} (hstep : step config s a = some t) :
    Effect config s a t := by
  cases a with
  | request a =>
    simp only [step] at hstep
    split at hstep
    · rename_i hrequest
      obtain ⟨x, hx, rfl⟩ := Option.map_eq_some_iff.mp hstep
      exact .request hrequest hx
    · cases hstep
  | commit w id eventId now =>
    obtain ⟨task, htask, hstep⟩ := Option.bind_eq_some_iff.mp hstep
    split at hstep
    · obtain ⟨x, hx, hstep⟩ := Option.bind_eq_some_iff.mp hstep
      simp only at hstep
      split at hstep
      · rename_i hsame
        cases hstep
        exact .unchanged htask hx hsame
      · rename_i hmore
        split at hstep
        · rename_i hevent
          obtain ⟨o, ho, rfl⟩ := Option.map_eq_some_iff.mp hstep
          simp only [Invalidation.step] at ho
          split at ho
          · rename_i hid
            cases ho
            exact .committed htask hx hmore hid hevent
          · cases ho
        · cases hstep
    · cases hstep
  | relay a =>
    simp only [step] at hstep
    split at hstep
    · rename_i hother
      obtain ⟨o, ho, rfl⟩ := Option.map_eq_some_iff.mp hstep
      exact .relay hother ho
    · cases hstep
  | send relay failure written =>
    obtain ⟨o, ho, rfl⟩ := Option.map_eq_some_iff.mp hstep
    cases hnext : nextEvent (s.outbox.relays relay) with
    | none => exact .unwritten (by simp [hnext]) ho
    | some e =>
      by_cases hwritten : (failure.isNone || written) = true
      · simp only [hwritten, if_true]
        exact .written hnext ho
      · simp only [hwritten]
        refine .unwritten (fun e he hnone => hwritten ?_) ho
        simp [hnone]
  | group jvm a =>
    simp only [step] at hstep
    split at hstep
    · rename_i hcontainer
      split at hstep
      · obtain ⟨g, hg, rfl⟩ := Option.map_eq_some_iff.mp hstep
        exact .leaves hg
      · split at hstep
        · cases hstep
        · rename_i hfree
          obtain ⟨g, hg, rfl⟩ := Option.map_eq_some_iff.mp hstep
          refine .group hcontainer (fun c hc => ?_) hg
          by_contra hne
          exact hfree ⟨c, hc, Option.isSome_iff_ne_none.mpr hne⟩
    · cases hstep
  | onMessage jvm c =>
    obtain ⟨batch, hbatch, hstep⟩ := Option.bind_eq_some_iff.mp hstep
    split at hstep
    · rename_i o ho
      obtain ⟨m, hm, hstep⟩ := Option.bind_eq_some_iff.mp hstep
      obtain ⟨x, hx, rfl⟩ := Option.map_eq_some_iff.mp hstep
      exact .begins hbatch ho hm hx
    · cases hstep
  | evict jvm c a =>
    simp only [step] at hstep
    split at hstep
    · rename_i hcall
      obtain ⟨x, hx, hstep⟩ := Option.bind_eq_some_iff.mp hstep
      split at hstep
      · rename_i task htask
        cases hstep
        exact .calls hcall.1 hcall.2 hx htask
      · rename_i hended
        obtain ⟨g, hg, rfl⟩ := Option.map_eq_some_iff.mp hstep
        exact .returns hcall.1 hcall.2 hx hended hg
    · cases hstep
  | publish jvm c answered =>
    obtain ⟨⟨p, m⟩, hnext, hstep⟩ := Option.bind_eq_some_iff.mp hstep
    obtain ⟨g, hg, rfl⟩ := Option.map_eq_some_iff.mp hstep
    exact .published hnext hg

end Hmdp.Broadcast
