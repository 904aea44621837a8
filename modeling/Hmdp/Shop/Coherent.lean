import Hmdp.Shop.Step

/-!
# The shop caches after an invalidation

When a JVM's handler evicts for a write it holds the shop's write lock, so no query of the shop is
under way anywhere: whatever is read from the table afterwards has that write, and whatever is
found in Redis, or in the JVM's own cache, has been read from the table afterwards. The other JVMs'
caches may keep older rows, but nothing goes from them to Redis.

So every value on its way into a cache, and every entry of Redis, is at least as new as each write
some JVM has handled; every entry of a JVM's own cache is as new as the writes that JVM has handled
(`Inv`).

* `TaskOk.frame`: what the other tasks rely on.
* **`query_returns_committed_row`**: a query that starts after its JVM has handled a write returns
  the row of that write or of a later one.
-/

namespace Hmdp.Shop

open Hmdp.Lib Hmdp.Model

variable {Thread Jvm Shop : Type}

/-! ## The invariant -/

/-- A value as new as the write `floor`, and the one its version says. -/
structure Fresh (history : List Shop) (floor : ℕ) (x : Versioned (Option Shop)) : Prop where
  floor_le : floor ≤ x.version
  version_le : x.version ≤ history.length
  value_eq : 1 ≤ x.version → history[x.version - 1]? = x.value

/-- The value a query carries to a cache. -/
def carried : ReadPhase Shop → Option (Versioned (Option Shop))
  | .cacheNull version => some ⟨none, version⟩
  | .localInvalidate version => some ⟨none, version⟩
  | .cacheShop shop => some shop.found
  | .localPut shop => some shop.found
  | _ => none

/-- A carried value is as new as the writes any JVM has handled, a result as the write the query
has started after. -/
structure PhaseOk (history : List Shop) (handled : Jvm → ℕ) (since : ℕ) (phase : ReadPhase Shop) :
    Prop where
  carried : ∀ x, carried phase = some x → ∀ jvm, Fresh history (handled jvm) x
  returning : ∀ x, phase = .returning x → Fresh history since x

/-- What holds of a task's work. -/
def WorkOk (s : State Thread Jvm Shop) (jvm : Jvm) (id : ShopId) : Work Shop → Prop
  | .queryById since phase =>
    since ≤ s.handled jvm id ∧
      PhaseOk (s.store.history id) (fun jvm => s.handled jvm id) since phase
  | .update _ _ => True
  | .saveShop _ _ => True
  | .evict version phase =>
    version ≤ (s.store.history id).length ∧
      (phase = .redisDelete → s.store.localCache jvm id = none)

/-- What a call holds and has read agrees with its lock and the table. -/
structure TaskOk (s : State Thread Jvm Shop) (th : Thread) (task : Task Jvm Shop) : Prop where
  holds : ∀ mode, task.work.holding = some mode → (s.locks task.shopId).Holds mode th
  work : WorkOk s task.jvm task.shopId task.work

/-- What a query has returned; if that is the newest version, it is the row. -/
def ReturnOk (history : ShopId → List Shop) (r : Return Jvm Shop) : Prop :=
  ∃ version, Fresh (history r.shopId) r.since ⟨r.result, version⟩ ∧ version ≤ r.committed ∧
    (1 ≤ version → version = r.committed → r.result = r.row)

/-- No cache has an older shop than the events handled so far. -/
structure StoreOk (store : ShopStore Jvm Shop) (handled : Jvm → ShopId → ℕ) : Prop where
  localCache : ∀ jvm id shop, store.localCache jvm id = some shop →
    Fresh (store.history id) (handled jvm id) shop.found
  redis : ∀ id x, store.redis id = some x → ∀ jvm, Fresh (store.history id) (handled jvm id) x
  db : ∀ id jvm, Fresh (store.history id) (handled jvm id) (store.selectById id)

/-- **The invariant**: calls, stores and answers, each up to date. -/
structure Inv (s : State Thread Jvm Shop) : Prop where
  tasks : ∀ th task, s.tasks th = some task → TaskOk s th task
  stores : StoreOk s.store s.handled
  returns : ∀ r ∈ s.returns, ReturnOk s.store.history r

variable {s t : State Thread Jvm Shop}

/-! ## Fresh values -/

section

variable {history : List Shop} {floor : ℕ} {x : Versioned (Option Shop)}

theorem Fresh.mono (h : Fresh history floor x) {floor' : ℕ} (hle : floor' ≤ floor) :
    Fresh history floor' x :=
  ⟨hle.trans h.floor_le, h.version_le, h.value_eq⟩

/-- More commits leave a fresh value as it is. -/
theorem Fresh.append (h : Fresh history floor x) (more : List Shop) :
    Fresh (history ++ more) floor x where
  floor_le := h.floor_le
  version_le := by
    rw [List.length_append]
    exact Nat.le_add_right_of_le h.version_le
  value_eq hone := by
    rw [List.getElem?_append_left (by have := h.version_le; omega)]
    exact h.value_eq hone

/-- A value as new as some write is the row of a write. -/
theorem Fresh.isSome (h : Fresh history floor x) (hone : 1 ≤ floor) : x.value.isSome = true := by
  have hv : 1 ≤ x.version := hone.trans h.floor_le
  have hlt : x.version - 1 < history.length := by
    have := h.version_le
    omega
  rw [← h.value_eq hv, List.getElem?_eq_getElem hlt]
  rfl

end

/-! ## The other tasks -/

/-- What a step leaves to the tasks that are not its own: their locks; and where a query or an
eviction is under way, what it relies on. -/
structure Frame (s t : State Thread Jvm Shop) (own : Thread → Prop) : Prop where
  holds : ∀ other, ¬ own other → ∀ id mode,
    (s.locks id).Holds mode other → (t.locks id).Holds mode other
  history : ∀ id, s.store.history id <+: t.store.history id
  handled : ∀ jvm id, s.handled jvm id ≤ t.handled jvm id
  reading : ∀ other, ¬ own other → ∀ id, (s.locks id).Holds .read other →
    ∀ jvm, t.handled jvm id = s.handled jvm id
  evicting : ∀ other, ¬ own other → ∀ id, (s.locks id).Holds .write other →
    ∀ jvm, s.store.localCache jvm id = none → t.store.localCache jvm id = none

/-- A query that carries a value holds the READ lock. -/
theorem holding_of_carried {since : ℕ} {phase : ReadPhase Shop} {x : Versioned (Option Shop)}
    (h : carried phase = some x) : (Work.queryById since phase).holding = some .read := by
  cases phase <;> cases h <;> rfl

theorem Frame.fresh {own : Thread → Prop} {id : ShopId} {floor : ℕ} {x : Versioned (Option Shop)}
    (hf : Frame s t own) (h : Fresh (s.store.history id) floor x) :
    Fresh (t.store.history id) floor x := by
  obtain ⟨more, hmore⟩ := hf.history id
  rw [← hmore]
  exact h.append more

/-- **The frame rule.** -/
theorem TaskOk.frame {own : Thread → Prop} {other : Thread} {task : Task Jvm Shop}
    (hf : Frame s t own) (hne : ¬ own other) (h : TaskOk s other task) : TaskOk t other task := by
  refine ⟨fun mode hmode => hf.holds other hne _ mode (h.holds mode hmode), ?_⟩
  obtain ⟨jvm, id, work⟩ := task
  cases work with
  | queryById since phase =>
    obtain ⟨hsince, hphase⟩ := h.work
    refine ⟨hsince.trans (hf.handled jvm id), fun x hx jvm => ?_, fun x hx =>
      hf.fresh (hphase.returning x hx)⟩
    rw [hf.reading other hne id (h.holds .read (holding_of_carried hx))]
    exact hf.fresh (hphase.carried x hx jvm)
  | update patch phase => trivial
  | saveShop shop phase => trivial
  | evict version phase =>
    obtain ⟨hversion, hgone⟩ := h.work
    refine ⟨hversion.trans (hf.history id).length_le, fun hphase => ?_⟩
    have hhold : (s.locks id).Holds .write other := h.holds .write (by subst hphase; rfl)
    exact hf.evicting other hne id hhold jvm (hgone hphase)

/-- A step that keeps the frame, its own tasks and the stores keeps the invariant. -/
theorem Inv.of_frame {own : Thread → Prop} (hs : Inv s) (hf : Frame s t own)
    (hothers : ∀ other, ¬ own other → t.tasks other = s.tasks other)
    (hown : ∀ th task, own th → t.tasks th = some task → TaskOk t th task)
    (hstores : StoreOk t.store t.handled)
    (hreturns : ∀ r ∈ t.returns, r ∈ s.returns ∨ ReturnOk t.store.history r) : Inv t where
  tasks other task htask := by
    by_cases hne : own other
    · exact hown other task hne htask
    · rw [hothers other hne] at htask
      exact (hs.tasks other task htask).frame hf hne
  stores := hstores
  returns r hr := by
    rcases hreturns r hr with hold | hnew
    · obtain ⟨version, hfresh, hlast⟩ := hs.returns r hold
      exact ⟨version, hf.fresh hfresh, hlast⟩
    · exact hnew

/-- A step of one thread. -/
theorem Inv.of_thread (th : Thread) (hs : Inv s) (hf : Frame s t (· = th))
    (hothers : ∀ other, other ≠ th → t.tasks other = s.tasks other)
    (hown : ∀ task, t.tasks th = some task → TaskOk t th task)
    (hstores : StoreOk t.store t.handled)
    (hreturns : ∀ r ∈ t.returns, r ∈ s.returns ∨ ReturnOk t.store.history r) : Inv t :=
  hs.of_frame hf hothers (fun _ task hth' => hth' ▸ hown task) hstores hreturns

/-! ## The stores -/

variable {store store' : ShopStore Jvm Shop} {handled : Jvm → ShopId → ℕ}

theorem StoreOk.setRedis (h : StoreOk store handled) {id : ShopId}
    {shop : Option (Versioned (Option Shop))}
    (hshop : ∀ x, shop = some x → ∀ jvm, Fresh (store.history id) (handled jvm id) x) :
    StoreOk (store.setRedis id shop) handled where
  localCache := h.localCache
  redis id' x hx := by
    simp only [ShopStore.setRedis, Function.update_apply] at hx
    split at hx
    · rename_i hid
      subst hid
      exact hshop x hx
    · exact h.redis id' x hx
  db := h.db

theorem history_commit (store : ShopStore Jvm Shop) (id id' : ShopId) (shop : Shop) :
    store.history id' <+: (store.commit id shop).history id' := by
  simp only [ShopStore.commit, Function.update_apply]
  split
  · rename_i hid
    subst hid
    exact List.prefix_append _ _
  · exact List.prefix_rfl

theorem StoreOk.commit (h : StoreOk store handled) (id : ShopId) (shop : Shop) :
    StoreOk (store.commit id shop) handled := by
  have hfresh : ∀ {id' : ShopId} {floor : ℕ} {x : Versioned (Option Shop)},
      Fresh (store.history id') floor x →
        Fresh ((store.commit id shop).history id') floor x := by
    intro id' floor x hx
    obtain ⟨more, hmore⟩ := history_commit store id id' shop
    rw [← hmore]
    exact hx.append more
  refine ⟨fun jvm id' x hx => hfresh (h.localCache jvm id' x hx),
    fun id' x hx jvm => hfresh (h.redis id' x hx jvm), fun id' jvm => ?_⟩
  by_cases hid : id' = id
  · subst hid
    have hle := (h.db id' jvm).floor_le
    constructor <;>
      simp only [ShopStore.selectById, ShopStore.commit, Function.update_self,
        List.length_append, List.length_singleton] at hle ⊢
    · exact Nat.le_add_right_of_le hle
    · exact le_rfl
    · simp
  · have hsame : (store.commit id shop).selectById id' = store.selectById id' := by
      simp [ShopStore.selectById, ShopStore.commit, hid]
    rw [hsame]
    exact hfresh (h.db id' jvm)

/-! ## A query -/

variable {jvm : Jvm} {id : ShopId} {since : ℕ} {locked : Bool} {phase phase' : ReadPhase Shop}

/-- Most phases carry nothing. -/
theorem phaseOk_of_none {history : List Shop} {floors : Jvm → ℕ} (hc : carried phase = none)
    (hr : ∀ x, phase ≠ .returning x) : PhaseOk history floors since phase :=
  ⟨fun _ hx => absurd (hc.symm.trans hx) nofun, fun x hx => absurd hx (hr x)⟩

theorem phaseOk_ofLocal (h : StoreOk store handled) (hsince : since ≤ handled jvm id)
    (hmiss : PhaseOk (store.history id) (fun jvm => handled jvm id) since phase) :
    PhaseOk (store.history id) (fun jvm => handled jvm id) since
      (.ofLocal (store.localCache jvm id) phase) := by
  cases hfound : store.localCache jvm id with
  | none => exact hmiss
  | some shop =>
    refine ⟨nofun, fun x hx => ?_⟩
    cases hx
    exact (h.localCache jvm id shop hfound).mono hsince

theorem phaseOk_ofRedis (h : StoreOk store handled) (hsince : since ≤ handled jvm id)
    (hmiss : PhaseOk (store.history id) (fun jvm => handled jvm id) since phase) :
    PhaseOk (store.history id) (fun jvm => handled jvm id) since
      (.ofRedis (store.redis id) phase) := by
  cases hfound : store.redis id with
  | none => exact hmiss
  | some found =>
    have hfresh := h.redis id found hfound
    obtain ⟨_ | shop, version⟩ := found
    · refine ⟨nofun, fun x hx => ?_⟩
      cases hx
      exact (hfresh jvm).mono hsince
    · refine ⟨fun x hx => ?_, nofun⟩
      cases hx
      exact hfresh

variable [DecidableEq Thread] [DecidableEq Jvm]

theorem putLocal_apply (store : ShopStore Jvm Shop) (jvm jvm' : Jvm) (id id' : ShopId)
    (shop : Option (Versioned Shop)) :
    (store.putLocal jvm id shop).localCache jvm' id' =
      if jvm' = jvm ∧ id' = id then shop else store.localCache jvm' id' := by
  simp only [ShopStore.putLocal, Function.update_apply]
  split
  · rename_i hj
    subst hj
    by_cases hid : id' = id <;> simp [hid]
  · simp_all

theorem StoreOk.putLocal (h : StoreOk store handled) {jvm : Jvm} {id : ShopId}
    {shop : Option (Versioned Shop)}
    (hshop : ∀ x, shop = some x → Fresh (store.history id) (handled jvm id) x.found) :
    StoreOk (store.putLocal jvm id shop) handled where
  localCache jvm' id' x hx := by
    rw [putLocal_apply] at hx
    split at hx
    · rename_i hput
      obtain ⟨rfl, rfl⟩ := hput
      exact hshop x hx
    · exact h.localCache jvm' id' x hx
  redis := h.redis
  db := h.db

/-- **A statement of a query.** -/
theorem query_ok (h : StoreOk store handled) (hsince : since ≤ handled jvm id)
    (hphase : PhaseOk (store.history id) (fun jvm => handled jvm id) since phase)
    (hq : store.query jvm id locked phase = some (store', phase')) :
    StoreOk store' handled ∧
      PhaseOk (store'.history id) (fun jvm => handled jvm id) since phase' := by
  cases phase with
  | waiting => cases hq
  | localGet =>
    cases hq
    exact ⟨h, phaseOk_ofLocal h hsince (phaseOk_of_none rfl nofun)⟩
  | readRedis =>
    cases hq
    exact ⟨h, phaseOk_ofRedis h hsince (phaseOk_of_none rfl nofun)⟩
  | tryLock =>
    cases hq
    refine ⟨h, ?_⟩
    cases locked <;> exact phaseOk_of_none rfl nofun
  | lastLocalGet =>
    cases hq
    exact ⟨h, phaseOk_ofLocal h hsince (phaseOk_of_none rfl nofun)⟩
  | lastReadRedis =>
    cases hq
    exact ⟨h, phaseOk_ofRedis h hsince (phaseOk_of_none rfl nofun)⟩
  | timedOut => cases hq
  | secondLocalGet =>
    cases hq
    exact ⟨h, phaseOk_ofLocal h hsince (phaseOk_of_none rfl nofun)⟩
  | secondReadRedis =>
    cases hq
    exact ⟨h, phaseOk_ofRedis h hsince (phaseOk_of_none rfl nofun)⟩
  | databaseFallback =>
    -- the row read now has every committed write
    have hdb := h.db id
    simp only [ShopStore.query] at hq
    split at hq
    · rename_i shop version hrow
      cases hq
      rw [hrow] at hdb
      exact ⟨h, fun x hx jvm => Option.some.inj hx ▸ hdb jvm, nofun⟩
    · rename_i version hrow
      cases hq
      rw [hrow] at hdb
      exact ⟨h, fun x hx jvm => Option.some.inj hx ▸ hdb jvm, nofun⟩
  | cacheNull version =>
    cases hq
    have hcarried := hphase.carried _ rfl
    refine ⟨h.setRedis fun x hx => ?_, fun x hx => ?_, nofun⟩
    · cases hx
      exact hcarried
    · cases hx
      exact hcarried
  | localInvalidate version =>
    cases hq
    refine ⟨h.putLocal (by simp), nofun, fun x hx => ?_⟩
    cases hx
    exact (hphase.carried _ rfl jvm).mono hsince
  | cacheShop shop =>
    cases hq
    have hcarried := hphase.carried _ rfl
    refine ⟨h.setRedis fun x hx => ?_, fun x hx => ?_, nofun⟩
    · cases hx
      exact hcarried
    · cases hx
      exact hcarried
  | localPut shop =>
    cases hq
    have hcarried := hphase.carried _ rfl
    refine ⟨h.putLocal fun x hx => ?_, nofun, fun x hx => ?_⟩
    · cases hx
      exact hcarried jvm
    · cases hx
      exact (hcarried jvm).mono hsince
  | returning result => cases hq

/-- A statement of a query commits nothing and leaves the other shops. -/
theorem query_frame (hq : store.query jvm id locked phase = some (store', phase')) :
    store'.history = store.history ∧
      ∀ jvm' id', id' ≠ id → store'.localCache jvm' id' = store.localCache jvm' id' := by
  have hput : ∀ shop jvm' id', id' ≠ id →
      (store.putLocal jvm id shop).localCache jvm' id' = store.localCache jvm' id' := by
    intro shop jvm' id' hne
    rw [putLocal_apply, if_neg fun h => hne h.2]
  cases phase with
  | localInvalidate version =>
    cases hq
    exact ⟨rfl, hput _⟩
  | localPut shop =>
    cases hq
    exact ⟨rfl, hput _⟩
  | databaseFallback =>
    simp only [ShopStore.query] at hq
    split at hq <;> cases hq <;> exact ⟨rfl, fun _ _ _ => rfl⟩
  | _ =>
    cases hq <;> exact ⟨rfl, fun _ _ _ => rfl⟩

/-! ## Writes and evictions -/

variable {wphase wphase' : WritePhase}

/-- What a write or an eviction does to the stores. -/
structure WriteOk (store store' : ShopStore Jvm Shop) (handled : Jvm → ShopId → ℕ) : Prop where
  stores : StoreOk store' handled
  history : ∀ id, store.history id <+: store'.history id
  localCache : ∀ jvm id, store.localCache jvm id = none → store'.localCache jvm id = none

omit [DecidableEq Jvm] in
theorem WriteOk.refl (h : StoreOk store handled) : WriteOk store store handled :=
  ⟨h, fun _ => List.prefix_rfl, fun _ _ hnone => hnone⟩

omit [DecidableEq Jvm] in
theorem WriteOk.commit (h : StoreOk store handled) (shop : Shop) :
    WriteOk store (store.commit id shop) handled :=
  ⟨h.commit id shop, fun id' => history_commit store id id' shop, fun _ _ hnone => hnone⟩

theorem evict_ok (h : StoreOk store handled)
    (he : store.evict jvm id wphase = some (store', wphase')) : WriteOk store store' handled := by
  cases wphase with
  | localInvalidate =>
    cases he
    refine ⟨h.putLocal (by simp), fun _ => List.prefix_rfl, fun jvm' id' hnone => ?_⟩
    rw [putLocal_apply]
    split
    · rfl
    · exact hnone
  | redisDelete =>
    cases he
    exact ⟨h.setRedis (by simp), fun _ => List.prefix_rfl, fun _ _ hnone => hnone⟩
  | waiting => cases he
  | getById => cases he
  | commit => cases he
  | returning => cases he

theorem update_ok {patch : Shop → Shop} (h : StoreOk store handled)
    (hu : store.update jvm id patch wphase = some (store', wphase')) :
    WriteOk store store' handled := by
  unfold ShopStore.update at hu
  split at hu
  · cases hu
    exact .refl h
  · split at hu
    · cases hu
      exact .commit h _
    · cases hu
      exact .refl h
  · exact evict_ok h hu

theorem saveShop_ok {shop : Shop} (h : StoreOk store handled)
    (hs : store.saveShop jvm id shop wphase = some (store', wphase')) :
    WriteOk store store' handled := by
  unfold ShopStore.saveShop at hs
  split at hs
  · split at hs
    · cases hs
      exact .commit h _
    · cases hs
  · exact evict_ok h hs

/-! ## A statement of a task -/

variable {th : Thread} {task task' : Task Jvm Shop}

theorem lockMode_of_holding {work : Work Shop} {mode : LockMode}
    (h : work.holding = some mode) : work.lockMode = some mode := by
  unfold Work.holding at h
  split at h
  · cases h
  · exact h

/-- A task executes statements only under its lock. -/
theorem next_holding (h : task.next store locked = some (store', task')) :
    task'.jvm = task.jvm ∧ task'.shopId = task.shopId ∧
      task.work.holding = task.work.lockMode ∧ task'.work.lockMode = task.work.lockMode := by
  obtain ⟨jvm, id, work⟩ := task
  cases work with
  | queryById since phase =>
    obtain ⟨r, hr, hr'⟩ := Option.map_eq_some_iff.mp h
    cases hr'
    refine ⟨rfl, rfl, ?_, rfl⟩
    cases phase <;> first | rfl | cases hr
  | update patch phase =>
    obtain ⟨r, hr, hr'⟩ := Option.map_eq_some_iff.mp h
    cases hr'
    refine ⟨rfl, rfl, ?_, rfl⟩
    cases phase <;> first | rfl | cases hr
  | saveShop shop phase =>
    obtain ⟨r, hr, hr'⟩ := Option.map_eq_some_iff.mp h
    cases hr'
    exact ⟨rfl, rfl, rfl, rfl⟩
  | evict version phase =>
    obtain ⟨r, hr, hr'⟩ := Option.map_eq_some_iff.mp h
    cases hr'
    refine ⟨rfl, rfl, ?_, rfl⟩
    cases phase <;> first | rfl | cases hr

omit [DecidableEq Thread] in
theorem holds_of_next (hs : Inv s) (htask : s.tasks th = some task)
    (hnext : task.next store locked = some (store', task')) :
    ∀ mode, task'.work.holding = some mode → (s.locks task.shopId).Holds mode th := by
  obtain ⟨-, -, hholding, hmode⟩ := next_holding hnext
  intro mode hm
  refine (hs.tasks th task htask).holds mode ?_
  rw [hholding, ← hmode]
  exact lockMode_of_holding hm

/-- A statement that completes no eviction. -/
theorem inv_statement (hs : Inv s) (htask : s.tasks th = some task)
    (hnext : task.next s.store locked = some (store', task'))
    (hstores : StoreOk store' s.handled)
    (hhistory : ∀ id, s.store.history id <+: store'.history id)
    (hevicting : ∀ other, other ≠ th → ∀ id, (s.locks id).Holds .write other →
      ∀ jvm, s.store.localCache jvm id = none → store'.localCache jvm id = none)
    (hwork : WorkOk (s.withStore store') task.jvm task.shopId task'.work) :
    Inv ((s.withStore store').withTask th (some task')) := by
  obtain ⟨hjvm, hid, -, -⟩ := next_holding hnext
  have hholds := holds_of_next hs htask hnext
  refine hs.of_thread th ?_ (fun other hne => Function.update_of_ne hne _ _) ?_ hstores
    fun r hr => Or.inl hr
  · exact ⟨fun _ _ _ _ h => h, hhistory, fun _ _ => le_rfl, fun _ _ _ _ _ => rfl, hevicting⟩
  · intro task'' htask''
    obtain rfl : task' = task'' := by simpa [State.withTask] using htask''
    refine ⟨?_, ?_⟩
    · rw [hid]
      exact hholds
    · rw [hjvm, hid]
      exact hwork

omit [DecidableEq Thread] in
theorem markHandled_zero (s : State Thread Jvm Shop) (jvm : Jvm) (id : ShopId) :
    s.markHandled jvm id 0 = s := by
  simp [State.markHandled]

omit [DecidableEq Thread] in
theorem markHandled_apply (s : State Thread Jvm Shop) (jvm jvm' : Jvm) (id id' : ShopId)
    (version : ℕ) :
    (s.markHandled jvm id version).handled jvm' id' =
      if jvm' = jvm ∧ id' = id then max (s.handled jvm id) version else s.handled jvm' id' := by
  simp only [State.markHandled, Function.update_apply]
  split
  · rename_i hj
    subst hj
    by_cases hid : id' = id <;> simp [hid]
  · simp_all

theorem inv_query {jvm : Jvm} {id : ShopId} (hs : Inv s)
    (htask : s.tasks th = some ⟨jvm, id, .queryById since phase⟩)
    (hq : s.store.query jvm id locked phase = some (store', phase')) :
    Inv ((s.withStore store').withTask th (some ⟨jvm, id, .queryById since phase'⟩)) := by
  have hnext : (⟨jvm, id, .queryById since phase⟩ : Task Jvm Shop).next s.store locked =
      some (store', ⟨jvm, id, .queryById since phase'⟩) := by
    simp [Task.next, hq]
  have hok := hs.tasks th _ htask
  obtain ⟨hsince, hphase⟩ := hok.work
  obtain ⟨hstores, hphase'⟩ := query_ok hs.stores hsince hphase hq
  obtain ⟨hhistory, hlocal⟩ := query_frame hq
  have hread : (s.locks id).Holds .read th := hok.holds .read (next_holding hnext).2.2.1
  refine inv_statement hs htask hnext hstores (fun _ => by rw [hhistory]) ?_ ⟨hsince, hphase'⟩
  intro other hne id' hwrite jvm' hnone
  by_cases hid : id' = id
  · subst hid
    exact absurd (RwLock.holds_exclusive hwrite hread).1 nofun
  · rw [hlocal jvm' id' hid]
    exact hnone

/-- **The handler's eviction.** Nobody reads the shop, so what is left of it is what the JVMs' own
caches have. -/
theorem inv_redisDelete {jvm : Jvm} {id : ShopId} {version : ℕ} (hs : Inv s)
    (htask : s.tasks th = some ⟨jvm, id, .evict version .redisDelete⟩) :
    Inv (((s.withStore (s.store.setRedis id none)).markHandled jvm id version).withTask th
      (some ⟨jvm, id, .evict version .returning⟩)) := by
  have hok := hs.tasks th _ htask
  have hwrite : (s.locks id).Holds .write th := hok.holds .write rfl
  obtain ⟨hversion, hgone⟩ := hok.work
  refine hs.of_thread th ?_ (fun other hne => Function.update_of_ne hne _ _) ?_ ?_
    fun r hr => Or.inl hr
  · refine ⟨fun _ _ _ _ h => h, fun _ => List.prefix_rfl, fun jvm' id' => ?_,
      fun other hne id' hread jvm' => ?_, fun _ _ _ _ _ h => h⟩
    · change s.handled jvm' id' ≤ (s.markHandled jvm id version).handled jvm' id'
      rw [markHandled_apply]
      split
      · rename_i heq
        obtain ⟨rfl, rfl⟩ := heq
        exact le_max_left _ _
      · exact le_rfl
    · change (s.markHandled jvm id version).handled jvm' id' = s.handled jvm' id'
      rw [markHandled_apply, if_neg]
      rintro ⟨-, rfl⟩
      exact absurd (RwLock.holds_exclusive hwrite hread).1 nofun
  · intro task' htask'
    obtain rfl : _ = task' := by simpa [State.withTask] using htask'
    exact ⟨fun mode hm => hok.holds mode hm, hversion, nofun⟩
  · change StoreOk (s.store.setRedis id none) (s.markHandled jvm id version).handled
    have hset : StoreOk (s.store.setRedis id none) s.handled := hs.stores.setRedis (by simp)
    refine ⟨fun jvm' id' shop hshop => ?_, fun id' x hx jvm' => ?_, fun id' jvm' => ?_⟩
    · rw [markHandled_apply, if_neg]
      · exact hset.localCache jvm' id' shop hshop
      · rintro ⟨rfl, rfl⟩
        rw [show s.store.localCache jvm' id' = some shop from hshop] at hgone
        exact absurd (hgone rfl) nofun
    · rw [markHandled_apply, if_neg]
      · exact hset.redis id' x hx jvm'
      · rintro ⟨-, rfl⟩
        simp [ShopStore.setRedis] at hx
    · have hdb := hset.db id' jvm'
      rw [markHandled_apply]
      split
      · rename_i heq
        obtain ⟨rfl, rfl⟩ := heq
        exact ⟨max_le hdb.floor_le hversion, hdb.version_le, hdb.value_eq⟩
      · exact hdb

/-- **Statements keep the invariant.** -/
theorem inv_next (hs : Inv s) (htask : s.tasks th = some task)
    (hnext : task.next s.store locked = some (store', task')) :
    Inv (((s.withStore store').markHandled task.jvm task.shopId task.work.completes).withTask th
      (some task')) := by
  obtain ⟨jvm, id, work⟩ := task
  have hnext' := hnext
  cases work with
  | queryById since phase =>
    obtain ⟨r, hr, heq⟩ := Option.map_eq_some_iff.mp hnext
    cases heq
    rw [show (Work.queryById since phase).completes = 0 from rfl, markHandled_zero]
    exact inv_query hs htask hr
  | update patch phase =>
    obtain ⟨r, hr, heq⟩ := Option.map_eq_some_iff.mp hnext
    cases heq
    have hok := update_ok hs.stores hr
    rw [show (Work.update patch phase).completes = 0 from rfl, markHandled_zero]
    exact inv_statement hs htask hnext' hok.stores hok.history
      (fun _ _ id' _ jvm' => hok.localCache jvm' id') trivial
  | saveShop shop phase =>
    obtain ⟨r, hr, heq⟩ := Option.map_eq_some_iff.mp hnext
    cases heq
    have hok := saveShop_ok hs.stores hr
    rw [show (Work.saveShop shop phase).completes = 0 from rfl, markHandled_zero]
    exact inv_statement hs htask hnext' hok.stores hok.history
      (fun _ _ id' _ jvm' => hok.localCache jvm' id') trivial
  | evict version phase =>
    obtain ⟨r, hr, heq⟩ := Option.map_eq_some_iff.mp hnext
    cases heq
    have hversion := (hs.tasks th _ htask).work.1
    have hok := evict_ok hs.stores hr
    cases phase with
    | localInvalidate =>
      cases hr
      rw [show (Work.evict version .localInvalidate : Work Shop).completes = 0 from rfl,
        markHandled_zero]
      refine inv_statement hs htask hnext' hok.stores hok.history
        (fun _ _ id' _ jvm' => hok.localCache jvm' id') ⟨hversion, fun _ => ?_⟩
      change (s.store.putLocal jvm id none).localCache jvm id = none
      rw [putLocal_apply, if_pos ⟨rfl, rfl⟩]
    | redisDelete =>
      cases hr
      exact inv_redisDelete hs htask
    | waiting => cases hr
    | getById => cases hr
    | commit => cases hr
    | returning => cases hr

/-! ## The other steps -/

omit [DecidableEq Jvm] in
/-- A call that ends leaves the others their locks. -/
theorem inv_leave {returns : List (Return Jvm Shop)} (hs : Inv s)
    (hreturns : ∀ r ∈ returns, r ∈ s.returns ∨ ReturnOk s.store.history r) :
    Inv { s.leave th task with returns := returns } := by
  refine hs.of_thread th ?_ (fun other hne => Function.update_of_ne hne _ _) ?_ hs.stores hreturns
  · refine ⟨fun other hne id mode hholds => ?_, fun _ => List.prefix_rfl, fun _ _ => le_rfl,
      fun _ _ _ _ _ => rfl, fun _ _ _ _ _ h => h⟩
    simp only [State.leave]
    split
    · rw [Function.update_apply]
      split
      · rename_i hid
        subst hid
        exact RwLock.holds_release hne hholds
      · exact hholds
    · exact hholds
  · intro task' htask'
    simp [State.leave] at htask'

omit [DecidableEq Jvm] in
theorem inv_start {jvm : Jvm} {id : ShopId} {call : Call Shop} (hs : Inv s)
    (hcall : call.enabled (s.store.history id).length = true) :
    Inv (s.withTask th (some ⟨jvm, id, call.begin (s.handled jvm id)⟩)) := by
  refine hs.of_thread th ?_ (fun other hne => Function.update_of_ne hne _ _) ?_ hs.stores
    fun r hr => Or.inl hr
  · exact ⟨fun _ _ _ _ h => h, fun _ => List.prefix_rfl, fun _ _ => le_rfl,
      fun _ _ _ _ _ => rfl, fun _ _ _ _ _ h => h⟩
  · intro task' htask'
    obtain rfl : _ = task' := by simpa [State.withTask] using htask'
    cases call with
    | queryById => exact ⟨nofun, le_rfl, phaseOk_of_none rfl nofun⟩
    | update patch => exact ⟨nofun, trivial⟩
    | saveShop shop => exact ⟨nofun, trivial⟩
    | evict version =>
      have hversion : 1 ≤ version ∧ version ≤ (s.store.history id).length :=
        of_decide_eq_true hcall
      exact ⟨nofun, hversion.2, nofun⟩

omit [DecidableEq Thread] [DecidableEq Jvm] in
theorem workOk_granted {jvm : Jvm} {id : ShopId} {work work' : Work Shop}
    (h : work.granted = some work') (hwork : WorkOk s jvm id work) :
    work'.lockMode = work.lockMode ∧ WorkOk s jvm id work' := by
  cases work with
  | queryById since phase =>
    cases phase <;> cases h
    exact ⟨rfl, hwork.1, phaseOk_of_none rfl nofun⟩
  | update patch phase =>
    cases phase <;> cases h
    exact ⟨rfl, trivial⟩
  | saveShop shop phase => cases h
  | evict version phase =>
    cases phase <;> cases h
    exact ⟨rfl, hwork.1, nofun⟩

omit [DecidableEq Jvm] in
theorem inv_acquire {work : Work Shop} {mode : LockMode} {lock : RwLock Thread} (hs : Inv s)
    (htask : s.tasks th = some task) (hgranted : task.work.granted = some work)
    (hmode : task.work.lockMode = some mode)
    (hlock : (s.locks task.shopId).acquire mode th = some lock) :
    Inv ((s.withLock task.shopId lock).withTask th (some { task with work := work })) := by
  refine hs.of_thread th ?_ (fun other hne => Function.update_of_ne hne _ _) ?_ hs.stores
    fun r hr => Or.inl hr
  · refine ⟨fun other _ id mode' hholds => ?_, fun _ => List.prefix_rfl, fun _ _ => le_rfl,
      fun _ _ _ _ _ => rfl, fun _ _ _ _ _ h => h⟩
    simp only [State.withLock, State.withTask, Function.update_apply]
    split
    · rename_i hid
      subst hid
      exact RwLock.holds_acquire hlock hholds
    · exact hholds
  · intro task' htask'
    obtain rfl : _ = task' := by simpa [State.withTask] using htask'
    obtain ⟨hsame, hwork⟩ := workOk_granted hgranted (hs.tasks th task htask).work
    refine ⟨fun mode' hmode' => ?_, hwork⟩
    have hmode' : work.lockMode = some mode' := lockMode_of_holding hmode'
    obtain rfl : mode = mode' := Option.some.inj (hmode.symm.trans (hsame.symm.trans hmode'))
    simp only [State.withLock, State.withTask, Function.update_self]
    exact RwLock.holds_of_acquire hlock

omit [DecidableEq Thread] [DecidableEq Jvm] in
theorem inv_expire (hs : Inv s) (hok : WriteOk s.store store' s.handled) :
    Inv (s.withStore store') := by
  have hframe : Frame s (s.withStore store') fun _ => False :=
    ⟨fun _ _ _ _ h => h, hok.history, fun _ _ => le_rfl, fun _ _ _ _ _ => rfl,
      fun _ _ id _ jvm => hok.localCache jvm id⟩
  exact hs.of_frame hframe (fun _ _ => rfl) nofun hok.stores fun r hr => Or.inl hr

/-! ## Runs -/

omit [DecidableEq Thread] [DecidableEq Jvm] in
theorem inv_init (localCache : Jvm → ShopId → Option Shop) (redis : ShopId → Option (Option Shop))
    (db : ShopId → Option Shop) : Inv (State.init localCache redis db : State Thread Jvm Shop) where
  tasks _ _ h := nomatch h
  stores :=
    { localCache := fun jvm id shop hshop => by
        obtain ⟨_, -, rfl⟩ := Option.map_eq_some_iff.mp hshop
        exact ⟨le_rfl, le_rfl, nofun⟩
      redis := fun id x hx jvm => by
        obtain ⟨_, -, rfl⟩ := Option.map_eq_some_iff.mp hx
        exact ⟨le_rfl, le_rfl, nofun⟩
      db := fun id jvm => ⟨le_rfl, le_rfl, nofun⟩ }
  returns _ hr := nomatch hr

omit [DecidableEq Thread] [DecidableEq Jvm] in
/-- A query returns a value as new as the write it has started after. -/
theorem returnOk_of_result {result : Versioned (Option Shop)} (hs : Inv s)
    (htask : s.tasks th = some task) (hresult : task.work.result = some (since, result)) :
    ReturnOk s.store.history ⟨task.jvm, task.shopId, since, result.value,
      (s.store.history task.shopId).length, s.store.db task.shopId⟩ := by
  obtain ⟨jvm, id, work⟩ := task
  have hwork := (hs.tasks th _ htask).work
  cases work with
  | queryById since' phase =>
    cases phase <;> cases hresult
    have hfresh := hwork.2.returning result rfl
    refine ⟨result.version, hfresh, hfresh.version_le, fun hone hlast => ?_⟩
    have hlast : result.version = (s.store.history id).length := hlast
    have hdb := (hs.stores.db id jvm).value_eq (hone.trans hlast.le)
    have hvalue := hfresh.value_eq hone
    rw [hlast] at hvalue
    exact hvalue.symm.trans hdb
  | update patch phase => cases hresult
  | saveShop shop phase => cases hresult
  | evict version phase => cases hresult

/-- **Every step keeps the invariant.** -/
theorem inv_step {a : Action Thread Jvm Shop} (hs : Inv s) (hstep : step s a = some t) :
    Inv t := by
  cases a with
  | start th jvm id call =>
    simp only [step] at hstep
    split at hstep
    · rename_i hen
      cases hstep
      exact inv_start hs (Bool.and_eq_true_iff.mp hen).2
    · cases hstep
  | acquire th =>
    simp only [step] at hstep
    split at hstep
    · cases hstep
    · rename_i task htask
      split at hstep
      · rename_i work mode hgranted hmode
        obtain ⟨lock, hlock, rfl⟩ := Option.map_eq_some_iff.mp hstep
        exact inv_acquire hs htask hgranted hmode hlock
      · cases hstep
  | next th locked =>
    simp only [step] at hstep
    split at hstep
    · cases hstep
    · rename_i task htask
      split at hstep
      · rename_i since result hresult
        cases hstep
        refine inv_leave hs fun r hr => ?_
        rcases List.mem_append.mp hr with hr | hr
        · exact Or.inl hr
        · right
          obtain rfl := List.mem_singleton.mp hr
          exact returnOk_of_result hs htask hresult
      · split at hstep
        · cases hstep
          exact inv_leave hs fun r hr => Or.inl hr
        · obtain ⟨⟨store', task'⟩, hnext, rfl⟩ := Option.map_eq_some_iff.mp hstep
          exact inv_next hs htask hnext
  | throw th =>
    simp only [step] at hstep
    split at hstep
    · cases hstep
    · cases hstep
      exact inv_leave hs fun r hr => Or.inl hr
  | expireLocal jvm id =>
    cases hstep
    refine inv_expire hs ⟨hs.stores.putLocal (by simp), fun _ => List.prefix_rfl, ?_⟩
    intro jvm' id' hnone
    rw [putLocal_apply]
    split
    · rfl
    · exact hnone
  | expireRedis id =>
    cases hstep
    exact inv_expire hs ⟨hs.stores.setRedis (by simp), fun _ => List.prefix_rfl, fun _ _ h => h⟩

/-- A query that had started after its JVM handled the event of the write `since` returns that
write's row or a later one, and the last committed row if that write was still the last one. -/
structure ReturnsCommitted (history : List Shop) (r : Return Jvm Shop) : Prop where
  newer : ∃ version row, r.since ≤ version ∧ version ≤ r.committed ∧
    history[version - 1]? = some row ∧ r.result = some row
  last : r.since = r.committed → r.row.isSome = true ∧ r.result = r.row

/-- **Coherence after an invalidation.** Once a JVM's handler has evicted a shop for the event of a
committed write, every query of it that starts on the JVM and returns normally returns that write's
row or a later one, never an older version and never a null marker. -/
theorem query_returns_committed_row {localCache : Jvm → ShopId → Option Shop}
    {redis : ShopId → Option (Option Shop)} {db : ShopId → Option Shop}
    {actions : List (Action Thread Jvm Shop)}
    (hrun : run step (State.init localCache redis db) actions = some t) :
    ∀ r ∈ t.returns, 1 ≤ r.since → ReturnsCommitted (t.store.history r.shopId) r := by
  intro r hr hone
  have hinv := run_invariant' (fun _ _ _ hs hstep => inv_step hs hstep)
    (inv_init localCache redis db) hrun
  obtain ⟨version, hfresh, hle, hlast⟩ := hinv.returns r hr
  have hsince : r.since ≤ version := hfresh.floor_le
  obtain ⟨row, hrow⟩ := Option.isSome_iff_exists.mp (hfresh.isSome hone)
  have hrow : r.result = some row := hrow
  refine ⟨⟨version, row, hsince, hle, ?_, hrow⟩, fun hsame => ?_⟩
  · rw [← hrow]
    exact hfresh.value_eq (hone.trans hsince)
  · have hresult := hlast (hone.trans hsince) (le_antisymm hle (hsame ▸ hsince))
    exact ⟨hresult ▸ hrow ▸ rfl, hresult⟩

/-- The shop 1 is updated on the JVM 0, whose eviction fails before Redis; the JVM 1, which has the
old row like Redis, handles the event and then reads the shop. -/
def updateHandleQuery : List (Action ℕ ℕ ℕ) :=
  [.start 0 0 1 (.update fun _ => 7), .acquire 0, .next 0 true, .next 0 true, .throw 0,
    .start 1 1 1 (.evict 1), .acquire 1, .next 1 true, .next 1 true, .next 1 true,
    .start 2 1 1 .queryById, .acquire 2, .next 2 true, .next 2 true, .next 2 true, .next 2 true,
    .next 2 true, .next 2 true, .next 2 true, .next 2 true, .next 2 true]

theorem query_returns_committed_row_after_failed_eviction :
    ∃ t : State ℕ ℕ ℕ, run step
        (State.init (fun _ _ => some 5) (fun _ => some (some 5)) fun _ => some 5)
        updateHandleQuery = some t ∧
      t.returns = [⟨1, 1, 1, some 7, 1, some 7⟩] ∧
      ReturnsCommitted (t.store.history 1) (⟨1, 1, 1, some 7, 1, some 7⟩ : Return ℕ ℕ) := by
  obtain ⟨t, hrun, hreturns⟩ := Option.map_eq_some_iff.mp
    (show (run step (State.init (fun _ _ => some 5) (fun _ => some (some 5)) fun _ => some 5)
      updateHandleQuery).map (fun t => t.returns) = some [⟨1, 1, 1, some 7, 1, some 7⟩] by
        decide +kernel)
  refine ⟨t, hrun, hreturns, ?_⟩
  exact query_returns_committed_row hrun _ (hreturns ▸ List.mem_singleton_self _) le_rfl

end Hmdp.Shop
