import Hmdp.Model.Types
import Mathlib.Logic.Function.Basic

/-!
# `CacheClient.queryWithMutex`

The calls of `queryWithMutex` for one id, statement by statement over Redis. A call that does not
get the lock sleeps and calls itself inside its `try`: the frames that wait for the inner call are
counted (`callers`), and each has its `finally` still to run. JSON is a parameter; `isBlank` is
`StrUtil.isBlank`.
-/

namespace Hmdp.Model

/-- hutool's `JSONUtil` for the class of the values. -/
structure JsonUtil (R : Type) where
  toJsonStr : R → Text
  /-- `none` where it throws -/
  toBean : Text → Option R

/-- What `queryWithMutex` throws. -/
inductive MutexError where
  /-- what `dbFallback` throws -/
  | dbFallback
  /-- `RuntimeException(InterruptedException)` -/
  | interrupted
  /-- what `toBean` throws -/
  | json
  deriving DecidableEq

/-- Where the innermost frame stands: the statement that is next. -/
inductive MutexPhase (R : Type) where
  | get
  | tryLock
  /-- `Thread.sleep(50)` -/
  | sleep
  | dbFallback
  | setNull
  | set (r : R)
  /-- the `finally`; `isLock` is the variable of that name -/
  | unlock (isLock : Bool) (outcome : Except MutexError (Option R))
  | returning (outcome : Except MutexError (Option R))

/-- A `queryWithMutex` under way. -/
structure MutexCall (R : Type) where
  keyPrefix : Text
  /-- the frames that wait for the return of the next inner one -/
  callers : ℕ
  phase : MutexPhase R

variable {Thread R : Type}

/-- The keys of the id. -/
structure MutexStore (Thread : Type) where
  /-- `keyPrefix + id` -/
  cache : Text → Option Text
  /-- `lock:shop:<id>`; ghost: the call that has set it -/
  lock : Option Thread

/-- `SET` or `DEL` of a cache key. -/
def MutexStore.setCache (s : MutexStore Thread) (keyPrefix : Text) (value : Option Text) :
    MutexStore Thread :=
  { s with cache := Function.update s.cache keyPrefix value }

namespace MutexCall

/-- The method is entered. -/
def begin (keyPrefix : Text) : MutexCall R := ⟨keyPrefix, 0, .get⟩

/-- The innermost frame ends: the one that waits for it comes to its `finally`. -/
def leave (call : MutexCall R) (outcome : Except MutexError (Option R)) : MutexCall R :=
  match call.callers with
  | 0 => { call with phase := .returning outcome }
  | callers + 1 => { call with callers, phase := .unlock false outcome }

/-- The next statement but the sleep and the fallback. -/
def next (isBlank : Text → Bool) (json : JsonUtil R) (call : MutexCall R) (th : Thread)
    (s : MutexStore Thread) : Option (MutexStore Thread × MutexCall R) :=
  match call.phase with
  | .get =>
    match s.cache call.keyPrefix with
    | none => some (s, { call with phase := .tryLock })
    | some shopJson =>
      if isBlank shopJson then some (s, call.leave (.ok none))
      else
        match json.toBean shopJson with
        | some r => some (s, call.leave (.ok (some r)))
        | none => some (s, call.leave (.error .json))
  | .tryLock =>
    match s.lock with
    | none => some ({ s with lock := some th }, { call with phase := .dbFallback })
    | some _ => some (s, { call with phase := .sleep })
  | .setNull =>
    some (s.setCache call.keyPrefix (some []), { call with phase := .unlock true (.ok none) })
  | .set r =>
    some (s.setCache call.keyPrefix (some (json.toJsonStr r)),
      { call with phase := .unlock true (.ok (some r)) })
  | .unlock _ outcome => some ({ s with lock := none }, call.leave outcome)
  | .sleep | .dbFallback | .returning _ => none

/-- The sleep ends: the frame calls `queryWithMutex` again. -/
def wake (call : MutexCall R) (interrupted : Bool) : Option (MutexCall R) :=
  match call.phase with
  | .sleep =>
    if interrupted then some { call with phase := .unlock false (.error .interrupted) }
    else some { call with callers := call.callers + 1, phase := .get }
  | _ => none

/-- `dbFallback` returns a value or null, or throws (`none`). -/
def fallback (call : MutexCall R) (result : Option (Option R)) : Option (MutexCall R) :=
  match call.phase, result with
  | .dbFallback, some (some r) => some { call with phase := .set r }
  | .dbFallback, some none => some { call with phase := .setNull }
  | .dbFallback, none => some { call with phase := .unlock true (.error .dbFallback) }
  | _, _ => none

end MutexCall

end Hmdp.Model
