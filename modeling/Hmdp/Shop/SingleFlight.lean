import Hmdp.Shop.Coherent

/-!
# One rebuild of a cold shop cache

Any number of threads on any number of JVMs are in `ShopCacheServiceImpl.queryById` beside each
other, each with a `databaseFallback` of its own, of which nothing is known: an application of it
returns any shop or null. One step is one statement of one of them. The lock `lock:shop:<id>`
excludes the other threads from a successful `tryLock` to the `unlock`; a `tryLock` may give up at
any time. Nothing is evicted, expires or fails.

The caches hold nothing but the result of the one application (`Agrees`), and between that and the
write to Redis the lock is held (`Once.rebuilding`): who gets the lock either applies the fallback
first or finds its result in Redis.

* `query_agrees`: one statement of a query.
* **`single_flight`**: from a cold cache the fallback is applied at most once, and what a call
  returns is the result of that application.
-/

namespace Hmdp.SingleFlight

open Hmdp.Lib Hmdp.Model Hmdp.Shop

variable {Thread Jvm Shop : Type} [DecidableEq Thread] [DecidableEq Jvm]

/-! ## The calls -/

/-- A `queryById` and where it stands; `locked` is the variable of that name. -/
structure Lookup (Jvm Shop : Type) where
  jvm : Jvm
  shopId : ShopId
  locked : Bool
  phase : ReadPhase Shop
  deriving DecidableEq

/-- A `queryById` that has returned normally; `applied` is ghost: what the applications of a
fallback to the id had returned by then. -/
structure Answer (Shop : Type) where
  shopId : ShopId
  result : Option Shop
  applied : List (Option Shop)
  deriving DecidableEq

/-- The caches and the lock, with the calls under way. -/
structure Calls (Thread Jvm Shop : Type) where
  store : ShopStore Jvm Shop
  /-- `lock:shop:<id>` -/
  locks : ShopId → Option Thread
  lookups : Thread → Option (Lookup Jvm Shop)
  /-- ghost: what the applications of a fallback to the id have returned, in order -/
  applied : ShopId → List (Option Shop)
  /-- ghost -/
  answers : List (Answer Shop)

/-- The steps of the calls, and the expiries. -/
inductive Move (Thread Jvm Shop : Type) where
  | queryById (th : Thread) (jvm : Jvm) (id : ShopId)
  /-- the next statement but `tryLock` and the fallback, the `unlock`, or the return -/
  | next (th : Thread)
  | tryLock (th : Thread) (locked : Bool)
  | databaseFallback (th : Thread) (result : Option Shop)

/-- What follows the fallback. -/
def afterFallback (shop : Versioned (Option Shop)) : ReadPhase Shop :=
  match shop with
  | ⟨some shop, version⟩ => .cacheShop ⟨shop, version⟩
  | ⟨none, version⟩ => .cacheNull version

namespace Calls

/-- A call begins, moves or ends. -/
def withLookup (s : Calls Thread Jvm Shop) (th : Thread) (lookup : Option (Lookup Jvm Shop)) :
    Calls Thread Jvm Shop :=
  { s with lookups := Function.update s.lookups th lookup }

/-- The lock of a shop is taken or given up. -/
def withLock (s : Calls Thread Jvm Shop) (id : ShopId) (holder : Option Thread) :
    Calls Thread Jvm Shop :=
  { s with locks := Function.update s.locks id holder }

/-- The next statement. -/
def statement (s : Calls Thread Jvm Shop) (th : Thread) (lookup : Lookup Jvm Shop)
    (locked : Bool) : Option (Calls Thread Jvm Shop) :=
  (s.store.query lookup.jvm lookup.shopId locked lookup.phase).map fun r =>
    { s with store := r.1 }.withLookup th (some { lookup with phase := r.2 })

/-- The fallback returns; the version is the ghost it has in `ShopStore.query`. -/
def fallback (s : Calls Thread Jvm Shop) (th : Thread) (lookup : Lookup Jvm Shop)
    (result : Option Shop) : Calls Thread Jvm Shop :=
  let found := { s.store.selectById lookup.shopId with value := result }
  { s with
    applied := Function.update s.applied lookup.shopId (s.applied lookup.shopId ++ [result])
    lookups := Function.update s.lookups th (some { lookup with phase := afterFallback found }) }

/-- The call returns. -/
def answer (s : Calls Thread Jvm Shop) (th : Thread) (lookup : Lookup Jvm Shop)
    (result : Option Shop) : Calls Thread Jvm Shop :=
  { s with
    lookups := Function.update s.lookups th none
    answers := s.answers ++ [⟨lookup.shopId, result, s.applied lookup.shopId⟩] }

end Calls

/-- Any caches, and no call under way. -/
def Calls.init (store : ShopStore Jvm Shop) : Calls Thread Jvm Shop where
  store := store
  locks _ := none
  lookups _ := none
  applied _ := []
  answers := []

/-- One step; `none` where the call is not where the move needs it. -/
def step (s : Calls Thread Jvm Shop) : Move Thread Jvm Shop → Option (Calls Thread Jvm Shop)
  | .queryById th jvm id =>
    if (s.lookups th).isNone then some (s.withLookup th (some ⟨jvm, id, false, .localGet⟩))
    else none
  | .next th =>
    (s.lookups th).bind fun lookup =>
      match lookup.phase with
      | .tryLock => none
      | .databaseFallback => none
      -- "Timed out waiting for shop cache rebuild"
      | .timedOut => some (s.withLookup th none)
      | .returning result =>
        if lookup.locked then
          some ((s.withLock lookup.shopId none).withLookup th
            (some { lookup with locked := false }))
        else some (s.answer th lookup result.value)
      | _ => s.statement th lookup false
  | .tryLock th locked =>
    (s.lookups th).bind fun lookup =>
      match lookup.phase with
      | .tryLock =>
        if locked then
          if (s.locks lookup.shopId).isNone then
            (s.withLock lookup.shopId (some th)).statement th { lookup with locked := true } true
          else none
        else s.statement th lookup false
      | _ => none
  | .databaseFallback th result =>
    (s.lookups th).bind fun lookup =>
      match lookup.phase with
      | .databaseFallback => some (s.fallback th lookup result)
      | _ => none

/-- The fallback that `ShopServiceImpl` passes returns the row of the table. -/
theorem query_databaseFallback (store : ShopStore Jvm Shop) (jvm : Jvm) (id : ShopId)
    (locked : Bool) :
    store.query jvm id locked .databaseFallback =
      some (store, afterFallback (store.selectById id)) := by
  unfold ShopStore.query afterFallback
  rcases store.selectById id with ⟨_ | shop, version⟩ <;> rfl

/-! ## One statement -/

/-- The caches have nothing but the result of the one application. -/
structure Agrees (applied : List (Option Shop)) (store : ShopStore Jvm Shop) (id : ShopId) :
    Prop where
  localCache : ∀ jvm shop, store.localCache jvm id = some shop → applied = [some shop.value]
  redis : ∀ x, store.redis id = some x → applied = [x.value]

/-- What a call at the statement knows of the applications. -/
def Progress (applied : List (Option Shop)) : ReadPhase Shop → Prop
  | .databaseFallback => applied = []
  | .cacheNull _ => applied = [none]
  | .localInvalidate _ => applied = [none]
  | .cacheShop shop => applied = [some shop.value]
  | .localPut shop => applied = [some shop.value]
  | .returning result => applied = [result.value]
  | _ => True

/-- The statements between a successful `tryLock` and the write to Redis. -/
inductive InSection : ReadPhase Shop → Prop where
  | secondLocalGet : InSection .secondLocalGet
  | secondReadRedis : InSection .secondReadRedis
  | databaseFallback : InSection .databaseFallback
  | cacheNull (version : ℕ) : InSection (.cacheNull version)
  | cacheShop (shop : Versioned Shop) : InSection (.cacheShop shop)

/-- The write to Redis is next. -/
inductive Rebuilding : ReadPhase Shop → Prop where
  | cacheNull (version : ℕ) : Rebuilding (.cacheNull version)
  | cacheShop (shop : Versioned Shop) : Rebuilding (.cacheShop shop)

theorem Rebuilding.inSection {phase : ReadPhase Shop} (h : Rebuilding phase) :
    InSection phase := by
  cases h with
  | cacheNull version => exact .cacheNull version
  | cacheShop shop => exact .cacheShop shop

section Statement

variable {store store' : ShopStore Jvm Shop} {applied : List (Option Shop)} {jvm : Jvm}
  {id : ShopId} {locked : Bool} {phase phase' : ReadPhase Shop}

omit [DecidableEq Jvm] in
theorem redis_setRedis (store : ShopStore Jvm Shop) (id : ShopId)
    (x : Option (Versioned (Option Shop))) : (store.setRedis id x).redis id = x :=
  by simp [ShopStore.setRedis]

omit [DecidableEq Jvm] in
theorem Agrees.setRedis (h : Agrees applied store id) {x : Versioned (Option Shop)}
    (hx : applied = [x.value]) : Agrees applied (store.setRedis id (some x)) id where
  localCache := h.localCache
  redis y hy := by
    rw [redis_setRedis] at hy
    cases hy
    exact hx

theorem Agrees.putLocal (h : Agrees applied store id) {shop : Option (Versioned Shop)}
    (hx : ∀ x, shop = some x → applied = [some x.value]) :
    Agrees applied (store.putLocal jvm id shop) id where
  localCache jvm' x hx' := by
    rw [putLocal_apply] at hx'
    split at hx'
    · exact hx x hx'
    · exact h.localCache jvm' x hx'
  redis := h.redis

omit [DecidableEq Jvm] in
theorem progress_ofLocal (h : Agrees applied store id) {miss : ReadPhase Shop}
    (hmiss : Progress applied miss) :
    Progress applied (.ofLocal (store.localCache jvm id) miss) := by
  unfold ReadPhase.ofLocal
  split
  · rename_i shop hshop
    exact h.localCache jvm shop hshop
  · exact hmiss

omit [DecidableEq Jvm] in
theorem progress_ofRedis (h : Agrees applied store id) {miss : ReadPhase Shop}
    (hmiss : store.redis id = none → Progress applied miss) :
    Progress applied (.ofRedis (store.redis id) miss) := by
  unfold ReadPhase.ofRedis
  split
  · rename_i shop version hshop
    exact h.redis _ hshop
  · rename_i version hnull
    exact h.redis _ hnull
  · rename_i hnone
    exact hmiss hnone

/-- **A statement of a query**, where the second lookup misses only before the application. -/
theorem query_agrees (h : Agrees applied store id) (hp : Progress applied phase)
    (hmiss : phase = .secondReadRedis → store.redis id = none → applied = [])
    (hfallback : phase ≠ .databaseFallback)
    (hq : store.query jvm id locked phase = some (store', phase')) :
    Agrees applied store' id ∧ Progress applied phase' := by
  cases phase with
  | waiting => cases hq
  | localGet =>
    cases hq
    exact ⟨h, progress_ofLocal h trivial⟩
  | readRedis =>
    cases hq
    exact ⟨h, progress_ofRedis h fun _ => trivial⟩
  | tryLock =>
    cases hq
    refine ⟨h, ?_⟩
    cases locked <;> trivial
  | lastLocalGet =>
    cases hq
    exact ⟨h, progress_ofLocal h trivial⟩
  | lastReadRedis =>
    cases hq
    exact ⟨h, progress_ofRedis h fun _ => trivial⟩
  | timedOut => cases hq
  | secondLocalGet =>
    cases hq
    exact ⟨h, progress_ofLocal h trivial⟩
  | secondReadRedis =>
    cases hq
    exact ⟨h, progress_ofRedis h (hmiss rfl)⟩
  | databaseFallback => exact absurd rfl hfallback
  | cacheNull version =>
    cases hq
    exact ⟨h.setRedis hp, hp⟩
  | localInvalidate version =>
    cases hq
    exact ⟨h.putLocal nofun, hp⟩
  | cacheShop shop =>
    cases hq
    exact ⟨h.setRedis hp, hp⟩
  | localPut shop =>
    cases hq
    refine ⟨h.putLocal fun x hx => ?_, hp⟩
    cases hx
    exact hp
  | returning result => cases hq

/-- Redis keeps an entry, and has one after the write. -/
theorem query_redis (hq : store.query jvm id locked phase = some (store', phase'))
    (h : Rebuilding phase ∨ store.redis id ≠ none) : store'.redis id ≠ none := by
  have hset : ∀ x, (store.setRedis id (some x)).redis id ≠ none := by
    intro x hx
    rw [redis_setRedis] at hx
    cases hx
  cases phase with
  | cacheNull version =>
    cases hq
    exact hset _
  | cacheShop shop =>
    cases hq
    exact hset _
  | databaseFallback =>
    rw [query_databaseFallback] at hq
    cases hq
    exact h.resolve_left nofun
  | _ =>
    cases hq
    try exact h.resolve_left nofun

/-- A statement of a query leaves the other shops. -/
theorem query_other (hq : store.query jvm id locked phase = some (store', phase')) {id' : ShopId}
    (hne : id' ≠ id) : store'.redis id' = store.redis id' := by
  cases phase with
  | cacheNull version =>
    cases hq
    exact Function.update_of_ne hne _ _
  | cacheShop shop =>
    cases hq
    exact Function.update_of_ne hne _ _
  | databaseFallback =>
    rw [query_databaseFallback] at hq
    cases hq
    rfl
  | _ => cases hq <;> rfl

theorem inSection_ofLocal (found : Option (Versioned Shop)) {miss : ReadPhase Shop}
    (h : InSection (.ofLocal found miss)) : InSection miss := by
  cases found with
  | none => exact h
  | some shop => cases h

theorem inSection_ofRedis (found : Option (Versioned (Option Shop))) {miss : ReadPhase Shop}
    (h : InSection (.ofRedis found miss)) : InSection miss := by
  rcases found with _ | ⟨_ | shop, version⟩
  · exact h
  · cases h
  · cases h

/-- The only way into the section is the lock. -/
theorem query_section (hq : store.query jvm id locked phase = some (store', phase'))
    (h : InSection phase') : InSection phase ∨ phase = .tryLock ∧ locked = true := by
  cases phase with
  | tryLock =>
    cases hq
    cases locked with
    | true => exact .inr ⟨rfl, rfl⟩
    | false => cases h
  | localGet =>
    cases hq
    cases inSection_ofLocal _ h
  | readRedis =>
    cases hq
    cases inSection_ofRedis _ h
  | lastLocalGet =>
    cases hq
    cases inSection_ofLocal _ h
  | lastReadRedis =>
    cases hq
    cases inSection_ofRedis _ h
  | secondLocalGet => exact .inl .secondLocalGet
  | secondReadRedis => exact .inl .secondReadRedis
  | databaseFallback => exact .inl .databaseFallback
  | cacheNull version => exact .inl (.cacheNull version)
  | cacheShop shop => exact .inl (.cacheShop shop)
  | _ =>
    cases hq
    try cases h

end Statement

/-! ## The invariant -/

/-- A call in the rebuilding section holds the lock. -/
structure LookupOk (applied : List (Option Shop)) (holder : Option Thread) (th : Thread)
    (lookup : Lookup Jvm Shop) : Prop where
  progress : Progress applied lookup.phase
  holds : lookup.locked = true → holder = some th
  section_locked : InSection lookup.phase → lookup.locked = true

/-- The fallback of the id has been applied at most once, and nothing but its result is about. -/
structure Once (id : ShopId) (s : Calls Thread Jvm Shop) : Prop where
  atMost : (s.applied id).length ≤ 1
  agrees : Agrees (s.applied id) s.store id
  lookups : ∀ th lookup, s.lookups th = some lookup → lookup.shopId = id →
    LookupOk (s.applied id) (s.locks id) th lookup
  /-- until the write to Redis the lock is held -/
  rebuilding : s.applied id ≠ [] → s.store.redis id = none →
    ∃ th lookup, s.lookups th = some lookup ∧ lookup.shopId = id ∧ Rebuilding lookup.phase
  answers : ∀ a ∈ s.answers, a.shopId = id → a.applied = [a.result]

variable {s t : Calls Thread Jvm Shop} {id : ShopId} {th : Thread} {lookup : Lookup Jvm Shop}

omit [DecidableEq Thread] [DecidableEq Jvm] in
/-- One call at a time is in the section. -/
theorem Once.exclusive (hs : Once id s) (hlookup : s.lookups th = some lookup)
    (hid : lookup.shopId = id) (hin : InSection lookup.phase) {other : Thread}
    {lookup' : Lookup Jvm Shop} (hlookup' : s.lookups other = some lookup')
    (hid' : lookup'.shopId = id) (hin' : InSection lookup'.phase) : other = th := by
  have h := hs.lookups th lookup hlookup hid
  have h' := hs.lookups other lookup' hlookup' hid'
  have hth := h.holds (h.section_locked hin)
  rw [h'.holds (h'.section_locked hin')] at hth
  exact Option.some.inj hth

omit [DecidableEq Thread] [DecidableEq Jvm] in
/-- Who is in the section before the fallback and finds nothing in Redis is the first. -/
theorem Once.first (hs : Once id s) (hlookup : s.lookups th = some lookup)
    (hid : lookup.shopId = id) (hin : InSection lookup.phase) (hnot : ¬ Rebuilding lookup.phase)
    (hnone : s.store.redis id = none) : s.applied id = [] := by
  by_contra happlied
  obtain ⟨other, lookup', hlookup', hid', hrebuilding⟩ := hs.rebuilding happlied hnone
  cases hs.exclusive hlookup hid hin hlookup' hid' hrebuilding.inSection
  cases hlookup.symm.trans hlookup'
  exact hnot hrebuilding

omit [DecidableEq Jvm] in
/-- **The frame rule.** A step of one thread, from `before` to `after`, that applies no fallback to
the id. -/
theorem Once.of_thread (hs : Once id s) {before after : Option (Lookup Jvm Shop)}
    (hbefore : s.lookups th = before) (hafter : t.lookups = Function.update s.lookups th after)
    (hlocks : ∀ other, other ≠ th → s.locks id = some other → t.locks id = some other)
    (happlied : t.applied id = s.applied id) (hagrees : Agrees (s.applied id) t.store id)
    (hredis : s.store.redis id ≠ none → t.store.redis id ≠ none)
    (hown : ∀ lookup, after = some lookup → lookup.shopId = id →
      LookupOk (s.applied id) (t.locks id) th lookup)
    (hwrites : ∀ lookup, before = some lookup → lookup.shopId = id →
      Rebuilding lookup.phase → t.store.redis id ≠ none)
    (hanswers : ∀ a ∈ t.answers, a.shopId = id → a.applied = [a.result]) : Once id t where
  atMost := happlied ▸ hs.atMost
  agrees := happlied ▸ hagrees
  lookups other lookup hlookup hid := by
    rw [happlied]
    by_cases hother : other = th
    · subst hother
      rw [hafter, Function.update_self] at hlookup
      exact hown lookup hlookup hid
    · rw [hafter, Function.update_of_ne hother] at hlookup
      have h := hs.lookups other lookup hlookup hid
      exact ⟨h.progress, fun hl => hlocks other hother (h.holds hl), h.section_locked⟩
  rebuilding hne hnone := by
    rw [happlied] at hne
    have hmissing : s.store.redis id = none := by
      by_contra h
      exact hredis h hnone
    obtain ⟨other, lookup, hlookup, hid, hrebuilding⟩ := hs.rebuilding hne hmissing
    have hother : other ≠ th := by
      rintro rfl
      exact hwrites lookup (hbefore.symm.trans hlookup) hid hrebuilding hnone
    refine ⟨other, lookup, ?_, hid, hrebuilding⟩
    rw [hafter, Function.update_of_ne hother]
    exact hlookup
  answers := hanswers

omit [DecidableEq Thread] in
/-- The store after a statement of a query. -/
theorem once_query {store' : ShopStore Jvm Shop} {phase' : ReadPhase Shop} (hs : Once id s)
    (hlookup : s.lookups th = some lookup) (hphase : lookup.phase ≠ .databaseFallback)
    {locked : Bool}
    (hq : s.store.query lookup.jvm lookup.shopId locked lookup.phase = some (store', phase')) :
    Agrees (s.applied id) store' id ∧ (s.store.redis id ≠ none → store'.redis id ≠ none) ∧
      (lookup.shopId = id → Progress (s.applied id) phase' ∧
        (Rebuilding lookup.phase → store'.redis id ≠ none)) := by
  by_cases hid : lookup.shopId = id
  · rw [hid] at hq
    have hprogress := (hs.lookups th lookup hlookup hid).progress
    obtain ⟨hagrees, hprogress'⟩ := query_agrees hs.agrees hprogress
      (fun h hnone => hs.first hlookup hid (h ▸ .secondReadRedis)
        (fun hr => by rw [h] at hr; cases hr) hnone) hphase hq
    exact ⟨hagrees, fun h => query_redis hq (.inr h),
      fun _ => ⟨hprogress', fun h => query_redis hq (.inl h)⟩⟩
  · have hredis := query_other hq (Ne.symm hid)
    have hlocal := fun jvm => (query_frame hq).2 jvm id (Ne.symm hid)
    refine ⟨⟨fun jvm shop hshop => ?_, fun x hx => ?_⟩, fun h => hredis ▸ h, fun h => absurd h hid⟩
    · exact hs.agrees.localCache jvm shop ((hlocal jvm).symm.trans hshop)
    · exact hs.agrees.redis x (hredis.symm.trans hx)

/-- A statement other than a successful `tryLock`. -/
theorem once_statement (hs : Once id s) (hlookup : s.lookups th = some lookup)
    (hphase : lookup.phase ≠ .databaseFallback) (hstep : s.statement th lookup false = some t) :
    Once id t := by
  obtain ⟨⟨store', phase'⟩, hq, rfl⟩ := Option.map_eq_some_iff.mp hstep
  obtain ⟨hagrees, hredis, hown⟩ := once_query hs hlookup hphase hq
  refine hs.of_thread hlookup rfl (fun _ _ h => h) rfl hagrees hredis (fun after hafter hid => ?_)
    (fun before hbefore hid => ?_) hs.answers
  · cases hafter
    have hok := hs.lookups th lookup hlookup hid
    refine ⟨(hown hid).1, hok.holds, fun hin => hok.section_locked ?_⟩
    exact (query_section hq hin).resolve_right nofun
  · cases hbefore
    exact (hown hid).2

/-- The `tryLock` that gets the lock. -/
theorem once_locked (hs : Once id s) (hlookup : s.lookups th = some lookup)
    (hphase : lookup.phase = .tryLock) (hfree : s.locks lookup.shopId = none)
    (hstep : (s.withLock lookup.shopId (some th)).statement th { lookup with locked := true } true =
      some t) : Once id t := by
  obtain ⟨jvm, shopId, locked, phase⟩ := lookup
  cases hphase
  cases hstep
  have hother : ∀ other, s.locks id = some other →
      (s.withLock shopId (some th)).locks id = some other := by
    intro other h
    have hne : id ≠ shopId := fun hid => by
      rw [hid, hfree] at h
      cases h
    exact (Function.update_of_ne hne _ _).trans h
  refine hs.of_thread hlookup rfl (fun other _ h => hother other h) rfl hs.agrees (fun h => h)
    (fun after hafter hid => ?_) (fun before hbefore hid hr => ?_) hs.answers
  · cases hafter
    cases hid
    exact ⟨trivial, fun _ => Function.update_self _ _ _, fun _ => rfl⟩
  · cases hbefore
    cases hr

omit [DecidableEq Jvm] in
/-- The `unlock`. -/
theorem once_unlock {result : Versioned (Option Shop)} (hs : Once id s)
    (hlookup : s.lookups th = some lookup) (hphase : lookup.phase = .returning result)
    (hlocked : lookup.locked = true) :
    Once id ((s.withLock lookup.shopId none).withLookup th
      (some { lookup with locked := false })) := by
  refine hs.of_thread hlookup rfl (fun other hne h => ?_) rfl hs.agrees (fun h => h)
    (fun after hafter hid => ?_) (fun before hbefore hid hr => ?_) hs.answers
  · have hid : id ≠ lookup.shopId := fun hid => by
      rw [(hs.lookups th lookup hlookup hid.symm).holds hlocked] at h
      exact hne (Option.some.inj h).symm
    exact (Function.update_of_ne hid _ _).trans h
  · cases hafter
    refine ⟨(hs.lookups th lookup hlookup hid).progress, nofun, fun hin => ?_⟩
    rw [hphase] at hin
    cases hin
  · cases hbefore
    rw [hphase] at hr
    cases hr

omit [DecidableEq Jvm] in
/-- The call is over, with an answer or without. -/
theorem once_leave {answers : List (Answer Shop)} (hs : Once id s)
    (hlookup : s.lookups th = some lookup) (hr : ¬ Rebuilding lookup.phase)
    (hanswers : ∀ a ∈ answers, a.shopId = id → a.applied = [a.result]) :
    Once id { s with lookups := Function.update s.lookups th none, answers := answers } := by
  refine hs.of_thread hlookup rfl (fun _ _ h => h) rfl hs.agrees (fun h => h) nofun
    (fun before hbefore hid hr' => ?_) hanswers
  cases hbefore
  exact absurd hr' hr

omit [DecidableEq Jvm] in
theorem once_start (hs : Once id s) (hfree : s.lookups th = none) (jvm : Jvm) (shopId : ShopId) :
    Once id (s.withLookup th (some ⟨jvm, shopId, false, .localGet⟩)) := by
  refine hs.of_thread hfree rfl (fun _ _ h => h) rfl hs.agrees (fun h => h)
    (fun after hafter hid => ?_) nofun hs.answers
  cases hafter
  exact ⟨trivial, nofun, nofun⟩

theorem progress_afterFallback (result : Versioned (Option Shop)) :
    Progress [result.value] (afterFallback result) := by
  rcases result with ⟨_ | shop, version⟩ <;> rfl

theorem rebuilding_afterFallback (result : Versioned (Option Shop)) :
    Rebuilding (afterFallback result) := by
  rcases result with ⟨_ | shop, version⟩
  · exact .cacheNull version
  · exact .cacheShop ⟨shop, version⟩

/-- Another call of the id is before the lock, or where it waits for it, when the fallback is
applied. -/
theorem progress_of_nil {phase : ReadPhase Shop} (h : Progress [] phase) (hin : ¬ InSection phase)
    (applied : List (Option Shop)) : Progress applied phase := by
  cases phase with
  | databaseFallback => exact absurd .databaseFallback hin
  | cacheNull version => cases h
  | localInvalidate version => cases h
  | cacheShop shop => cases h
  | localPut shop => cases h
  | returning result => cases h
  | _ => trivial

omit [DecidableEq Jvm] in
/-- **The application of the fallback.** -/
theorem once_fallback (hs : Once id s) (hlookup : s.lookups th = some lookup)
    (hphase : lookup.phase = .databaseFallback) (result : Option Shop) :
    Once id (s.fallback th lookup result) := by
  by_cases hid : lookup.shopId = id
  · have hok := hs.lookups th lookup hlookup hid
    have hnil : s.applied id = [] := by
      have h := hok.progress
      rw [hphase] at h
      exact h
    have hin : InSection lookup.phase := hphase ▸ .databaseFallback
    have happlied : (s.fallback th lookup result).applied id = [result] := by
      simp [Calls.fallback, hid, hnil]
    have hself : (s.fallback th lookup result).lookups th = some { lookup with
        phase := afterFallback { s.store.selectById lookup.shopId with value := result } } := by
      simp [Calls.fallback]
    exact
      { atMost := by
          rw [happlied]
          exact le_rfl
        agrees :=
          { localCache := fun jvm shop hshop => by
              have h := hs.agrees.localCache jvm shop hshop
              rw [hnil] at h
              cases h
            redis := fun x hx => by
              have h := hs.agrees.redis x hx
              rw [hnil] at h
              cases h }
        lookups := fun other lookup' hlookup' hid' => by
          rw [happlied]
          by_cases hother : other = th
          · subst hother
            cases hself.symm.trans hlookup'
            exact ⟨progress_afterFallback _, hok.holds, fun _ => hok.section_locked hin⟩
          · have hbefore : s.lookups other = some lookup' := by
              simpa [Calls.fallback, hother] using hlookup'
            have hok' := hs.lookups other lookup' hbefore hid'
            refine ⟨progress_of_nil (hnil ▸ hok'.progress) (fun hin' => hother ?_) _, hok'.holds,
              hok'.section_locked⟩
            exact hs.exclusive hlookup hid hin hbefore hid' hin'
        rebuilding := fun _ _ => ⟨th, _, hself, hid, rebuilding_afterFallback _⟩
        answers := hs.answers }
  · refine hs.of_thread hlookup rfl (fun _ _ h => h) (Function.update_of_ne (Ne.symm hid) _ _)
      hs.agrees (fun h => h) (fun after hafter hid' => ?_) (fun before hbefore hid' => ?_)
      hs.answers
    · cases hafter
      exact absurd hid' hid
    · cases hbefore
      exact absurd hid' hid

omit [DecidableEq Jvm] in
theorem once_answer {result : Versioned (Option Shop)} (hs : Once id s)
    (hlookup : s.lookups th = some lookup) (hphase : lookup.phase = .returning result) :
    Once id (s.answer th lookup result.value) := by
  refine once_leave hs hlookup (fun hr => ?_) fun a ha hid => ?_
  · rw [hphase] at hr
    cases hr
  · rcases List.mem_append.mp ha with ha | ha
    · exact hs.answers a ha hid
    · cases List.mem_singleton.mp ha
      cases hid
      have h := (hs.lookups th lookup hlookup rfl).progress
      rw [hphase] at h
      exact h

/-- **The step lemma.** -/
theorem once_step {a : Move Thread Jvm Shop} (hs : Once id s) (hstep : step s a = some t) :
    Once id t := by
  cases a with
  | queryById th jvm shopId =>
    simp only [step] at hstep
    split at hstep
    · rename_i hfree
      cases hstep
      exact once_start hs (Option.isNone_iff_eq_none.mp hfree) jvm shopId
    · cases hstep
  | next th =>
    obtain ⟨lookup, hlookup, hstep⟩ := Option.bind_eq_some_iff.mp hstep
    split at hstep
    · cases hstep
    · cases hstep
    · rename_i hphase
      cases hstep
      refine once_leave hs hlookup (fun hr => ?_) hs.answers
      rw [hphase] at hr
      cases hr
    · rename_i result hphase
      split at hstep
      · rename_i hlocked
        cases hstep
        exact once_unlock hs hlookup hphase hlocked
      · cases hstep
        exact once_answer hs hlookup hphase
    · rename_i hnot _ _
      exact once_statement hs hlookup hnot hstep
  | tryLock th locked =>
    obtain ⟨lookup, hlookup, hstep⟩ := Option.bind_eq_some_iff.mp hstep
    split at hstep
    · rename_i hphase
      split at hstep
      · split at hstep
        · rename_i hfree
          exact once_locked hs hlookup hphase (Option.isNone_iff_eq_none.mp hfree) hstep
        · cases hstep
      · exact once_statement hs hlookup (fun h => by rw [hphase] at h; cases h) hstep
    · cases hstep
  | databaseFallback th result =>
    obtain ⟨lookup, hlookup, hstep⟩ := Option.bind_eq_some_iff.mp hstep
    split at hstep
    · rename_i hphase
      cases hstep
      exact once_fallback hs hlookup hphase result
    · cases hstep

omit [DecidableEq Thread] [DecidableEq Jvm] in
theorem once_init {store : ShopStore Jvm Shop} (hlocal : ∀ jvm, store.localCache jvm id = none)
    (hredis : store.redis id = none) : Once id (Calls.init store : Calls Thread Jvm Shop) where
  atMost := Nat.zero_le 1
  agrees :=
    { localCache := fun jvm shop h => by
        cases (hlocal jvm).symm.trans h
      redis := fun x h => by
        cases hredis.symm.trans h }
  lookups := nofun
  rebuilding h := absurd rfl h
  answers := nofun

/-- **Single flight.** From a cold cache the fallback is applied to the id at most once, and every
call that returns normally returns after it and with its result. -/
theorem single_flight {store : ShopStore Jvm Shop} {moves : List (Move Thread Jvm Shop)}
    (hlocal : ∀ jvm, store.localCache jvm id = none) (hredis : store.redis id = none)
    (hrun : run step (.init store) moves = some t) :
    (t.applied id).length ≤ 1 ∧
      ∀ answer ∈ t.answers, answer.shopId = id → answer.applied = [answer.result] := by
  have h := run_invariant' (fun _ _ _ hs hstep => once_step hs hstep) (once_init hlocal hredis) hrun
  exact ⟨h.atMost, h.answers⟩

/-- Two calls on two JVMs miss both caches; the one that gets the lock first finds no row, the other
finds the null marker. -/
def twoMisses : List (Move ℕ ℕ ℕ) :=
  [.queryById 0 0 1, .queryById 1 1 1, .next 0, .next 1, .next 0, .next 1, .tryLock 0 true, .next 0,
    .next 0, .databaseFallback 0 none, .next 0, .next 0, .next 0, .tryLock 1 true, .next 1, .next 1,
    .next 1, .next 1, .next 0]

theorem single_flight_twoMisses :
    ∃ t : Calls ℕ ℕ ℕ,
      run step (.init ⟨fun _ _ => none, fun _ => none, fun _ => none, fun _ => []⟩) twoMisses =
        some t ∧
      t.answers = [⟨1, none, [none]⟩, ⟨1, none, [none]⟩] ∧ (t.applied 1).length ≤ 1 ∧
      ∀ answer ∈ t.answers, answer.shopId = 1 → answer.applied = [answer.result] := by
  obtain ⟨t, hrun, hanswers⟩ := Option.map_eq_some_iff.mp
    (show (run step (Calls.init ⟨fun _ _ => none, fun _ => none, fun _ => none, fun _ => []⟩)
      twoMisses).map (fun t => t.answers) = some [⟨1, none, [none]⟩, ⟨1, none, [none]⟩] by
        decide +kernel)
  exact ⟨t, hrun, hanswers, single_flight (fun _ => rfl) rfl hrun⟩

end Hmdp.SingleFlight
