import Hmdp.Lib.Machine
import Hmdp.Lib.RwLock
import Hmdp.Model.ShopCache

/-!
# Shop queries, writes and evictions

Any number of threads on any number of JVMs work beside each other; one step is one statement of
one of them. A query, an update and the eviction of a Kafka message run under the shop's read/write
lock, a save does not. A call may throw anywhere, before or after the effect of its statement, and
cache entries expire at any time.
-/

namespace Hmdp.Shop

open Hmdp.Lib Hmdp.Model

variable {Thread Jvm Shop : Type} [DecidableEq Thread] [DecidableEq Jvm]

/-- A call. -/
inductive Call (Shop : Type) where
  | queryById
  | update (patch : Shop → Shop)
  | saveShop (shop : Shop)
  /-- the handler's `evict` for the outbox event of the shop's write with this number -/
  | evict (version : ℕ)

/-- A call and where it stands. -/
inductive Work (Shop : Type) where
  /-- `since` is ghost: the newest write whose event the JVM had handled when the call started -/
  | queryById (since : ℕ) (phase : ReadPhase Shop)
  | update (patch : Shop → Shop) (phase : WritePhase)
  | saveShop (shop : Shop) (phase : WritePhase)
  | evict (version : ℕ) (phase : WritePhase)

/-- A call under way. -/
structure Task (Jvm Shop : Type) where
  jvm : Jvm
  shopId : ShopId
  work : Work Shop

/-- A `queryById` that has returned normally. -/
structure Return (Jvm Shop : Type) where
  jvm : Jvm
  shopId : ShopId
  since : ℕ
  result : Option Shop
  /-- the number of writes committed when it returned, and the row -/
  committed : ℕ
  row : Option Shop
  deriving DecidableEq

/-- The stores, the locks, and the calls under way. -/
structure State (Thread Jvm Shop : Type) where
  store : ShopStore Jvm Shop
  /-- `lock:cache:consistency:shop:<id>` -/
  locks : ShopId → RwLock Thread
  tasks : Thread → Option (Task Jvm Shop)
  /-- ghost: the newest write whose event the handler of the JVM has evicted for -/
  handled : Jvm → ShopId → ℕ
  /-- ghost -/
  returns : List (Return Jvm Shop)

/-- The steps: each statement of a call, the end of a call, and the expiries. -/
inductive Action (Thread Jvm Shop : Type) where
  | start (th : Thread) (jvm : Jvm) (id : ShopId) (call : Call Shop)
  /-- the lock is granted -/
  | acquire (th : Thread)
  /-- the next statement, or the return -/
  | next (th : Thread) (locked : Bool)
  /-- the call throws -/
  | throw (th : Thread)
  | expireLocal (jvm : Jvm) (id : ShopId)
  | expireRedis (id : ShopId)

/-- The work a call begins with. -/
def Call.begin (handled : ℕ) : Call Shop → Work Shop
  | .queryById => .queryById handled .waiting
  | .update patch => .update patch .waiting
  | .saveShop shop => .saveShop shop .commit
  | .evict version => .evict version .waiting

/-- The lock mode of the annotation; `none` for a save. -/
def Work.lockMode : Work Shop → Option LockMode
  | .queryById _ _ => some .read
  | .update _ _ => some .write
  | .saveShop _ _ => none
  | .evict _ _ => some .write

/-- The work once the lock is held, if it is waiting for it. -/
def Work.granted : Work Shop → Option (Work Shop)
  | .queryById since .waiting => some (.queryById since .localGet)
  | .update patch .waiting => some (.update patch .getById)
  | .evict version .waiting => some (.evict version .localInvalidate)
  | _ => none

/-- The mode the lock is held in. -/
def Work.holding (work : Work Shop) : Option LockMode :=
  if work.granted.isSome then none else work.lockMode

/-- The result a query is about to return. -/
def Work.result : Work Shop → Option (ℕ × Versioned (Option Shop))
  | .queryById since (.returning result) => some (since, result)
  | _ => none

/-- A write or an eviction is about to return. -/
def Work.finished : Work Shop → Bool
  | .update _ .returning => true
  | .saveShop _ .returning => true
  | .evict _ .returning => true
  | _ => false

/-- The next statement. -/
def Task.next (task : Task Jvm Shop) (store : ShopStore Jvm Shop) (locked : Bool) :
    Option (ShopStore Jvm Shop × Task Jvm Shop) :=
  match task.work with
  | .queryById since phase =>
    (store.query task.jvm task.shopId locked phase).map fun r =>
      (r.1, { task with work := .queryById since r.2 })
  | .update patch phase =>
    (store.update task.jvm task.shopId patch phase).map fun r =>
      (r.1, { task with work := .update patch r.2 })
  | .saveShop shop phase =>
    (store.saveShop task.jvm task.shopId shop phase).map fun r =>
      (r.1, { task with work := .saveShop shop r.2 })
  | .evict version phase =>
    (store.evict task.jvm task.shopId phase).map fun r =>
      (r.1, { task with work := .evict version r.2 })

/-- The number of the write whose eviction the next statement completes; 0 for none. -/
def Work.completes : Work Shop → ℕ
  | .evict version .redisDelete => version
  | _ => 0

namespace State

/-- A call begins, moves or ends. -/
def withTask (s : State Thread Jvm Shop) (th : Thread) (task : Option (Task Jvm Shop)) :
    State Thread Jvm Shop :=
  { s with tasks := Function.update s.tasks th task }

/-- The lock of a shop changes. -/
def withLock (s : State Thread Jvm Shop) (id : ShopId) (lock : RwLock Thread) :
    State Thread Jvm Shop :=
  { s with locks := Function.update s.locks id lock }

/-- The stores change. -/
def withStore (s : State Thread Jvm Shop) (store : ShopStore Jvm Shop) : State Thread Jvm Shop :=
  { s with store := store }

/-- The handler of the JVM has evicted for an event. -/
def markHandled (s : State Thread Jvm Shop) (jvm : Jvm) (id : ShopId) (version : ℕ) :
    State Thread Jvm Shop :=
  let handled := Function.update (s.handled jvm) id (max (s.handled jvm id) version)
  { s with handled := Function.update s.handled jvm handled }

/-- The call is over: its lock is released if it holds it. -/
def leave (s : State Thread Jvm Shop) (th : Thread) (task : Task Jvm Shop) :
    State Thread Jvm Shop :=
  let released := Function.update s.locks task.shopId ((s.locks task.shopId).release th)
  { s with
    locks := if task.work.holding.isSome then released else s.locks
    tasks := Function.update s.tasks th none }

end State

/-- Any caches and any rows, and no call under way. -/
def State.init (localCache : Jvm → ShopId → Option Shop) (redis : ShopId → Option (Option Shop))
    (db : ShopId → Option Shop) : State Thread Jvm Shop where
  store :=
    { localCache := fun jvm id => (localCache jvm id).map (⟨·, 0⟩)
      redis := fun id => (redis id).map (⟨·, 0⟩)
      db := db
      history := fun _ => [] }
  locks _ := .free
  tasks _ := none
  handled _ _ := 0
  returns := []

/-- The event of a write is in the outbox once the write is committed. -/
def Call.enabled (committed : ℕ) : Call Shop → Bool
  | .evict version => decide (1 ≤ version ∧ version ≤ committed)
  | _ => true

/-- One step; `none` where the call is not where the action needs it. -/
def step (s : State Thread Jvm Shop) : Action Thread Jvm Shop → Option (State Thread Jvm Shop)
  | .start th jvm id call =>
    if (s.tasks th).isNone && call.enabled (s.store.history id).length
    then some (s.withTask th (some ⟨jvm, id, call.begin (s.handled jvm id)⟩)) else none
  | .acquire th =>
    match s.tasks th with
    | none => none
    | some task =>
      match task.work.granted, task.work.lockMode with
      | some work, some mode =>
        ((s.locks task.shopId).acquire mode th).map fun lock =>
          (s.withLock task.shopId lock).withTask th (some { task with work := work })
      | _, _ => none
  | .next th locked =>
    match s.tasks th with
    | none => none
    | some task =>
      match task.work.result with
      | some (since, result) =>
        let returned : Return Jvm Shop :=
          ⟨task.jvm, task.shopId, since, result.value, (s.store.history task.shopId).length,
            s.store.db task.shopId⟩
        some { s.leave th task with returns := s.returns ++ [returned] }
      | none =>
        if task.work.finished then some (s.leave th task)
        else
          (task.next s.store locked).map fun r =>
            ((s.withStore r.1).markHandled task.jvm task.shopId task.work.completes).withTask th
              (some r.2)
  | .throw th =>
    match s.tasks th with
    | none => none
    | some task => some (s.leave th task)
  | .expireLocal jvm id => some (s.withStore (s.store.putLocal jvm id none))
  | .expireRedis id => some (s.withStore (s.store.setRedis id none))

end Hmdp.Shop
