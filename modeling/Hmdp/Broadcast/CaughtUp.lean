import Hmdp.Broadcast.Accounted

/-!
# A JVM that has caught up

When the event of no write of a shop is outstanding on a JVM and no query of the shop is under way
there, what the JVM answers from then on is as new as the table was at that moment, whatever the
caches, the other JVMs, the relays and the brokers go on to do.

* `Effect.shops`: to the shops a step of the whole is one step or none.
* `Newer`: the JVM has handled the writes, and all its queries have started after that.
* **`caught_up_reads`**: the rows such a JVM returns.
-/

namespace Hmdp.Broadcast

open Hmdp.Lib Hmdp.Lib.ConsumerGroup Hmdp.Model

variable {Worker Jvm Entity Relay : Type} [DecidableEq Worker] [DecidableEq Jvm]

/-! ## What the shops rely on -/

/-- From the `k`-th return on, the queries of the shop on the JVM have started after the write `n`
was handled there. -/
structure Newer (n k : ℕ) (jvm : Jvm) (id : ShopId)
    (x : Shop.State (Thread Jvm Worker) Jvm Entity) : Prop where
  handled : n ≤ x.handled jvm id
  queries : ∀ th since phase,
    x.tasks th = some ⟨jvm, id, .queryById since phase⟩ → n ≤ since
  count : k ≤ x.returns.length
  returns : ∀ r ∈ x.returns.drop k, r.jvm = jvm → r.shopId = id → n ≤ r.since

section

variable {x y : Shop.State (Thread Jvm Worker) Jvm Entity}
  {a : Shop.Action (Thread Jvm Worker) Jvm Entity} {n k : ℕ} {jvm : Jvm} {id : ShopId}

/-- A step that begins no query of the shop on the JVM and returns from none. -/
theorem Newer.of_same (h : Newer n k jvm id x) (hstep : Shop.step x a = some y)
    (hreturns : y.returns = x.returns)
    (htasks : ∀ th since phase, y.tasks th = some ⟨jvm, id, .queryById since phase⟩ →
      n ≤ since ∨ ∃ phase', x.tasks th = some ⟨jvm, id, .queryById since phase'⟩) :
    Newer n k jvm id y where
  handled := h.handled.trans (shop_handled hstep jvm id)
  queries th since phase hth := by
    rcases htasks th since phase hth with hle | ⟨phase', hold⟩
    · exact hle
    · exact h.queries th since phase' hold
  count := hreturns ▸ h.count
  returns := hreturns ▸ h.returns

/-- The task of one thread is another one. -/
theorem task_of_update {tasks : Thread Jvm Worker → Option (Shop.Task Jvm Entity)}
    {th th' : Thread Jvm Worker} {task : Option (Shop.Task Jvm Entity)}
    {task' : Shop.Task Jvm Entity} (h : Function.update tasks th task th' = some task') :
    th' = th ∧ task = some task' ∨ tasks th' = some task' := by
  rw [Function.update_apply] at h
  split at h
  · rename_i hth
    exact Or.inl ⟨hth, h⟩
  · exact Or.inr h

omit [DecidableEq Worker] in
/-- The next statement of a call keeps the query it is in. -/
theorem next_query {task : Shop.Task Jvm Entity} {store store' : ShopStore Jvm Entity}
    {locked : Bool} {since : ℕ} {phase : ReadPhase Entity}
    (h : task.next store locked = some (store', ⟨jvm, id, .queryById since phase⟩)) :
    ∃ phase', task = ⟨jvm, id, .queryById since phase'⟩ := by
  obtain ⟨jvm', id', work⟩ := task
  cases work <;> obtain ⟨r, -, heq⟩ := Option.map_eq_some_iff.mp h <;> cases heq
  exact ⟨_, rfl⟩

/-- **A step of the shop machine keeps it.** -/
theorem newer_step (h : Newer n k jvm id x) (hstep : Shop.step x a = some y) :
    Newer n k jvm id y := by
  have hsame := hstep
  cases a with
  | start th jvm' id' call =>
    simp only [Shop.step] at hstep
    split at hstep <;> cases hstep
    refine h.of_same hsame rfl fun th' since phase hth => ?_
    rcases task_of_update hth with ⟨-, hnew⟩ | hold
    · -- a query that begins now has seen what is handled now
      left
      cases call <;> cases hnew
      exact h.handled
    · exact Or.inr ⟨phase, hold⟩
  | acquire th =>
    simp only [Shop.step] at hstep
    split at hstep
    · cases hstep
    · rename_i task htask
      split at hstep
      · rename_i work mode hgranted hmode
        obtain ⟨lock, -, rfl⟩ := Option.map_eq_some_iff.mp hstep
        refine h.of_same hsame rfl fun th' since phase hth => ?_
        rcases task_of_update hth with ⟨rfl, hnew⟩ | hold
        · right
          obtain ⟨jvm', id', work'⟩ := task
          cases hnew
          cases work' with
          | queryById since' phase' =>
            cases phase' <;> cases hgranted
            exact ⟨_, htask⟩
          | update patch phase' => cases phase' <;> cases hgranted
          | saveShop shop phase' => cases hgranted
          | evict version phase' => cases phase' <;> cases hgranted
        · exact Or.inr ⟨phase, hold⟩
      · cases hstep
  | next th locked =>
    simp only [Shop.step] at hstep
    split at hstep
    · cases hstep
    · rename_i task htask
      have hleave : ∀ th' since phase,
          (x.leave th task).tasks th' = some ⟨jvm, id, .queryById since phase⟩ →
            n ≤ since ∨ ∃ phase', x.tasks th' = some ⟨jvm, id, .queryById since phase'⟩ := by
        intro th' since phase hth
        rcases task_of_update hth with ⟨-, hnew⟩ | hold
        · cases hnew
        · exact Or.inr ⟨phase, hold⟩
      split at hstep
      · rename_i since result hresult
        cases hstep
        refine ⟨h.handled, fun th' since' phase hth => ?_, ?_, fun r hr hjvm hid => ?_⟩
        · rcases hleave th' since' phase hth with hle | ⟨phase', hold⟩
          · exact hle
          · exact h.queries th' since' phase' hold
        · simp only [List.length_append]
          exact h.count.trans (Nat.le_add_right _ _)
        · -- the query that returns was one of those under way
          rw [List.drop_append_of_le_length h.count, List.mem_append, List.mem_singleton] at hr
          rcases hr with hr | rfl
          · exact h.returns r hr hjvm hid
          · obtain ⟨jvm', id', work⟩ := task
            cases hjvm
            cases hid
            cases work with
            | queryById since' phase =>
              cases phase <;> cases hresult
              exact h.queries th since _ htask
            | update patch phase => cases hresult
            | saveShop shop phase => cases hresult
            | evict version phase => cases hresult
      · split at hstep
        · cases hstep
          exact h.of_same hsame rfl hleave
        · obtain ⟨⟨store', task'⟩, hnext, rfl⟩ := Option.map_eq_some_iff.mp hstep
          refine h.of_same hsame rfl fun th' since phase hth => ?_
          rcases task_of_update hth with ⟨rfl, hnew⟩ | hold
          · cases hnew
            obtain ⟨phase', rfl⟩ := next_query hnext
            exact Or.inr ⟨phase', htask⟩
          · exact Or.inr ⟨phase, hold⟩
  | throw th =>
    simp only [Shop.step] at hstep
    split at hstep
    · cases hstep
    · cases hstep
      refine h.of_same hsame rfl fun th' since phase hth => ?_
      rcases task_of_update hth with ⟨-, hnew⟩ | hold
      · cases hnew
      · exact Or.inr ⟨phase, hold⟩
  | expireLocal jvm' id' =>
    cases hstep
    exact h.of_same hsame rfl fun _ _ phase hth => Or.inr ⟨phase, hth⟩
  | expireRedis id' =>
    cases hstep
    exact h.of_same hsame rfl fun _ _ phase hth => Or.inr ⟨phase, hth⟩

end

/-! ## The whole -/

variable [DecidableEq Relay] {config : Config} {s t : State Worker Jvm Entity Relay}

theorem newer_run {n k : ℕ} {jvm : Jvm} {id : ShopId} {bs : List (Action Worker Jvm Entity Relay)}
    (h : Newer n k jvm id s.shops) (hrun : run (step config) s bs = some t) :
    Newer n k jvm id t.shops := by
  refine run_invariant' (I := fun s : State Worker Jvm Entity Relay => Newer n k jvm id s.shops)
    (fun s a t hs hstep => ?_) h hrun
  rcases (step_effect hstep).shops with heq | ⟨b, hb⟩
  · exact heq ▸ hs
  · exact newer_step hs hb

/-- No event of the shop is outstanding on the JVM, and no query of it is under way there. -/
structure CaughtUp (config : Config) (s : State Worker Jvm Entity Relay) (jvm : Jvm)
    (id : ShopId) : Prop where
  events : ∀ r ∈ s.outbox.table.rows, r.targetId = id → ¬ Outstanding config s jvm r
  queries : ∀ w since phase,
    s.shops.tasks (.inr w) ≠ some ⟨jvm, id, .queryById since phase⟩

omit [DecidableEq Worker] [DecidableEq Jvm] [DecidableEq Relay] in
theorem CaughtUp.newer {jvm : Jvm} {id : ShopId} (h : CaughtUp config s jvm id)
    (hinv : Invariant config s) (hone : 1 ≤ (s.shops.store.history id).length) :
    Newer (s.shops.store.history id).length s.shops.returns.length jvm id s.shops where
  handled := by
    rcases hinv.accounted jvm hone le_rfl with hhandled | ⟨r, hr, hid, -, hout⟩
    · exact hhandled
    · exact absurd hout (h.events r hr hid)
  queries th since phase hth := by
    cases th with
    | inl member =>
      -- the listeners only evict
      obtain ⟨id', version, hevicting⟩ := hinv.evicting member.1 member.2
      obtain ⟨phase', heq, -⟩ := hevicting _ hth
      cases heq
    | inr w => exact absurd hth (h.queries w since phase)
  count := le_rfl
  returns r hr := by
    rw [List.drop_length] at hr
    exact absurd hr List.not_mem_nil

/-- The row of the write `n` or of a later one; if no later one is committed, the row that is
in the table. -/
structure AsNewAs (n : ℕ) (history : List Entity) (r : Shop.Return Jvm Entity) : Prop where
  newer : ∃ version row, n ≤ version ∧ version ≤ r.committed ∧
    history[version - 1]? = some row ∧ r.result = some row
  last : r.committed = n → r.result = r.row

/-- **A JVM that has caught up returns nothing older.** From the moment on at which no event of a
shop is outstanding on a JVM and no query of it is under way there, every query of the shop on the
JVM returns the row that was in the table at that moment, or a later one. -/
theorem caught_up_reads (hmax : 1 ≤ config.relay.maxAutoRetries)
    {localCache : Jvm → ShopId → Option Entity} {redis : ShopId → Option (Option Entity)}
    {db : ShopId → Option Entity} {as bs : List (Action Worker Jvm Entity Relay)}
    (hs : run (step config) (State.init localCache redis db) as = some s) {jvm : Jvm}
    {id : ShopId} (hcaught : CaughtUp config s jvm id)
    (hone : 1 ≤ (s.shops.store.history id).length) (ht : run (step config) s bs = some t) :
    ∀ r ∈ t.shops.returns.drop s.shops.returns.length, r.jvm = jvm → r.shopId = id →
      AsNewAs (s.shops.store.history id).length (t.shops.store.history id) r := by
  intro r hr hjvm hid
  have hreached := run_invariant' (fun _ _ _ => invariant_step hmax)
    (invariant_init config localCache redis db) hs
  have hsince := (newer_run (hcaught.newer hreached hone) ht).returns r hr hjvm hid
  have hshops := (run_invariant' (fun _ _ _ => invariant_step hmax) hreached ht).shops
  obtain ⟨version, hfresh, hle, hlast⟩ := hshops.returns r (List.mem_of_mem_drop hr)
  have hversion := hsince.trans hfresh.floor_le
  obtain ⟨row, hrow⟩ := Option.isSome_iff_exists.mp (hfresh.isSome (hone.trans hsince))
  have hrow : r.result = some row := hrow
  refine ⟨⟨version, row, hversion, hle, ?_, hrow⟩, fun hsame => ?_⟩
  · rw [← hrow, ← hid]
    exact hfresh.value_eq (hone.trans hversion)
  · exact hlast (hone.trans hversion) (le_antisymm hle (hsame ▸ hversion))

/-- The JVM 1 handles both records of the event. -/
def updateHandledTwice : List (Action Unit ℕ ℕ ℕ) :=
  [.request (.start (.inr ()) 0 1 (.update fun _ => 7)), .request (.acquire (.inr ())),
    .request (.next (.inr ()) true), .commit () 1 ['e'] 0, .request (.throw (.inr ())),
    .relay (.findDispatchable 0 0), .send 0 (some ⟨[], none⟩) true,
    .relay (.handleFailure 0 .returns 0 0), .send 0 none true, .relay (.findDispatchable 0 60),
    .send 0 none true, .relay (.markSent 0 .returns ⟨[], none⟩ 60), .group 1 (.assign 5 0)] ++
  (List.range 2).flatMap fun i =>
    [.group 1 (.poll 5 [⟨0, i, i + 1⟩]), .onMessage 1 5, .evict 1 5 (.acquire (.inl (1, 5))),
      .evict 1 5 (.next (.inl (1, 5)) true), .evict 1 5 (.next (.inl (1, 5)) true),
      .evict 1 5 (.next (.inl (1, 5)) true), .group 1 (.commit 5)]

/-- It reads the shop, which the JVM 2 still has in its old version. -/
def queryAfterwards : List (Action Unit ℕ ℕ ℕ) :=
  .request (.start (.inr ()) 1 1 .queryById) :: .request (.acquire (.inr ())) ::
    List.replicate 9 (.request (.next (.inr ()) true))

theorem caught_up_reads_both_records_handled :
    ∃ s t, run (step ⟨⟨10, 3, 1, 60⟩, 2, fun _ => 0⟩)
        (State.init (fun _ _ => some 5) (fun _ => some (some 5)) fun _ => some 5)
        updateHandledTwice = some s ∧
      run (step ⟨⟨10, 3, 1, 60⟩, 2, fun _ => 0⟩) s queryAfterwards = some t ∧
      t.shops.returns.drop s.shops.returns.length = [⟨1, 1, 1, some 7, 1, some 7⟩] ∧
      t.shops.store.localCache 2 1 = some ⟨5, 0⟩ ∧
      AsNewAs (s.shops.store.history 1).length (t.shops.store.history 1)
        (⟨1, 1, 1, some 7, 1, some 7⟩ : Shop.Return ℕ ℕ) := by
  obtain ⟨s, hs, hafter⟩ := Option.bind_eq_some_iff.mp
    (show ((run (step ⟨⟨10, 3, 1, 60⟩, 2, fun _ => 0⟩)
        (State.init (fun _ _ => some 5) (fun _ => some (some 5)) fun _ => some 5)
        updateHandledTwice).bind fun s =>
          (run (step ⟨⟨10, 3, 1, 60⟩, 2, fun _ => 0⟩) s queryAfterwards).map fun t =>
            (decide ((∀ r ∈ s.outbox.table.rows, r.status = .sent) ∧ s.deadLetters = [] ∧
              ((s.topics 1).log 0).length ≤ (s.topics 1).committed 0 ∧
              (∀ w, (s.shops.tasks (.inr w)).isNone = true) ∧
              1 ≤ (s.shops.store.history 1).length),
            t.shops.returns.drop s.shops.returns.length, t.shops.store.localCache 2 1)) =
        some (true, [⟨1, 1, 1, some 7, 1, some 7⟩], some ⟨5, 0⟩) by decide +kernel)
  obtain ⟨t, ht, hstate⟩ := Option.map_eq_some_iff.mp hafter
  obtain ⟨hstate, hreturns, hlocal⟩ : _ ∧ _ ∧ _ := by
    simpa only [Prod.mk.injEq] using hstate
  obtain ⟨hsent, hdead, hcommitted, hnone, hone⟩ := of_decide_eq_true hstate
  have hcaught : CaughtUp ⟨⟨10, 3, 1, 60⟩, 2, fun _ => 0⟩ s 1 1 :=
    { events := fun r hr _ hout => by
        cases hout with
        | pending status => exact absurd (status.symm.trans (hsent r hr)) (by decide)
        | failed status _ => exact absurd (status.symm.trans (hsent r hr)) (by decide)
        | waiting i uncommitted record =>
          have hlt := (List.getElem?_eq_some_iff.mp record).1
          exact absurd (hcommitted.trans uncommitted) (Nat.not_le.mpr hlt)
        | dead deadLetter => exact absurd (hdead ▸ deadLetter) List.not_mem_nil
      queries := fun w since phase htask => by
        have hisNone := hnone w
        rw [htask] at hisNone
        exact absurd hisNone (by simp) }
  refine ⟨s, t, hs, ht, hreturns, hlocal, ?_⟩
  exact caught_up_reads (by decide) hs hcaught hone ht _ (hreturns ▸ List.mem_singleton_self _)
    rfl rfl

end Hmdp.Broadcast
