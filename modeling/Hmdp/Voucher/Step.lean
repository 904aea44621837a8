import Hmdp.Lib.Machine
import Hmdp.Model.VoucherCache

/-!
# Updates, rebuilds, queries and invalidations of a voucher

Any number of threads on any number of JVMs work on one voucher; one step is one statement of one of
them. A call may throw anywhere, and an update that throws before its commit rolls back; the
compensation it has registered by then runs, as a task of the same thread. Entries and keys expire
at any time.

The ghosts say what a value served may be: the rows the committed updates have left, and, of the
updates that have written the hash, those that are neither committed nor undone.
-/

namespace Hmdp.Voucher

open Hmdp.Lib Hmdp.Model

variable {Thread Jvm : Type} [DecidableEq Thread] [DecidableEq Jvm]

/-- A call and where it stands. -/
inductive Work where
  | update (u : SeckillVoucherUpdateDTO) (phase : VoucherUpdatePhase)
  | rebuild (phase : RebuildPhase)
  /-- `since` is ghost: the newest update whose event the JVM had consumed when the call started -/
  | query (since : ℕ) (phase : VoucherQueryPhase)
  deriving DecidableEq

/-- A call of a thread on a JVM. -/
structure Task (Jvm : Type) where
  jvm : Jvm
  work : Work
  deriving DecidableEq

/-- The stores, the calls and the ghosts. -/
structure State (Thread Jvm : Type) where
  store : VoucherStore Thread Jvm
  tasks : Thread → Option (Task Jvm)
  /-- ghost: the rows each committed update has left -/
  history : List Activity
  /-- ghost: the update of a thread's call that has written the hash and is neither committed nor
  undone, with the number of those committed before -/
  attempts : Thread → Option (ℕ × SeckillVoucherUpdateDTO)
  /-- ghost: the newest update whose invalidation event the JVM has consumed -/
  consumed : Jvm → ℕ

/-- What a thread may be asked for. -/
inductive Call where
  | update (u : SeckillVoucherUpdateDTO)
  | rebuild
  | query

/-- The call at its first statement. -/
def Call.begin (consumed : ℕ) : Call → Work
  | .update u => .update u .select
  | .rebuild => .rebuild .tryLock
  | .query => .query consumed .localGet

/-- What happens next. -/
inductive Action (Thread Jvm : Type) where
  | start (th : Thread) (jvm : Jvm) (call : Call)
  /-- the next statement, or the return -/
  | next (th : Thread) (locked expired : Bool)
  | throw (th : Thread)
  /-- the consumer of the JVM invalidates for the event of the update with this number -/
  | consume (jvm : Jvm) (version : ℕ)
  | expireLocal (jvm : Jvm)
  | expireActivity
  | expireNull

/-- The next statement. -/
def Task.next (task : Task Jvm) (column : Time → Time) (th : Thread) (locked expired : Bool)
    (store : VoucherStore Thread Jvm) : Option (VoucherStore Thread Jvm × Work) :=
  match task.work with
  | .update u phase =>
    (store.update column th task.jvm u phase).map fun r => (r.1, .update u r.2)
  | .rebuild phase => (store.rebuild task.jvm locked expired phase).map fun r => (r.1, .rebuild r.2)
  | .query since phase => (store.query task.jvm locked phase).map fun r => (r.1, .query since r.2)

/-- The update whose write of the hash the next statement is. -/
def Work.attempt : Work → Option SeckillVoucherUpdateDTO
  | .update u (.putAll old) => if (u.apply old).valid then some u else none
  | _ => none

/-- The update that may still be committed, or undone. -/
def Work.undecided : Work → Option SeckillVoucherUpdateDTO
  | .update u (.localPut _) => some u
  | .update u (.commit _) => some u
  | .update u (.restore _) => some u
  | .update u (.restoreLocal _) => some u
  | _ => none

/-- The next statement is an update's commit. -/
def Work.commits : Work → Bool
  | .update _ (.commit _) => true
  | _ => false

/-- The call is over. -/
def Work.ends : Work → Bool
  | .update _ .finished => true
  | .rebuild .finished => true
  | .rebuild (.load .failed) => true
  | .query _ (.returning _) => true
  | _ => false

/-- What a thread goes on with after an exception: an update whose compensation is registered runs
it. -/
def Work.thrown : Work → Option Work
  | .update u (.putAll old) => some (.update u (.restore old))
  | .update u (.localPut old) => some (.update u (.restore old))
  | .update u (.commit old) => some (.update u (.restore old))
  | _ => none

/-- A compensation runs to its write of the hash. -/
def Work.throws : Work → Bool
  | .update _ (.restore _) => false
  | _ => true

/-- The thread has this call now. -/
def State.withTask (s : State Thread Jvm) (th : Thread) (task : Option (Task Jvm)) :
    State Thread Jvm :=
  { s with tasks := Function.update s.tasks th task }

/-- The attempt of the thread after a statement of `work` that leaves `next`. -/
def State.attemptAfter (s : State Thread Jvm) (th : Thread) (work next : Work) :
    Option (ℕ × SeckillVoucherUpdateDTO) :=
  match work.attempt with
  | some u => some (s.history.length, u)
  | none => if next.undecided.isSome then s.attempts th else none

/-- One step; `none` where the action is not enabled. -/
def step (column : Time → Time) (s : State Thread Jvm) :
    Action Thread Jvm → Option (State Thread Jvm)
  | .start th jvm call =>
    if s.tasks th = none then some (s.withTask th (some ⟨jvm, call.begin (s.consumed jvm)⟩))
    else none
  | .next th locked expired =>
    match s.tasks th with
    | none => none
    | some task =>
      if task.work.ends then some (s.withTask th none)
      else
        (task.next column th locked expired s.store).map fun r =>
          { s.withTask th (some ⟨task.jvm, r.2⟩) with
            store := r.1
            history := s.history ++ if task.work.commits then [r.1.db] else []
            attempts := Function.update s.attempts th (s.attemptAfter th task.work r.2) }
  | .throw th =>
    match s.tasks th with
    | none => none
    | some task =>
      if task.work.throws then
        some { s.withTask th (task.work.thrown.map fun work => ⟨task.jvm, work⟩) with
          store := s.store.unlock th
          attempts :=
            if task.work.thrown.isSome then s.attempts else Function.update s.attempts th none }
      else none
  | .consume jvm version =>
    if 1 ≤ version ∧ version ≤ s.history.length then
      some { s with
        store := s.store.invalidateLocal jvm
        consumed := Function.update s.consumed jvm (max (s.consumed jvm) version) }
    else none
  | .expireLocal jvm => some { s with store := s.store.invalidateLocal jvm }
  | .expireActivity => some { s with store := s.store.setActivity none }
  | .expireNull => some { s with store := { s.store with nullKey := false } }

/-- The hash agrees with the rows, which pass `validate`; no call is under way. -/
def State.init (db : { a : Activity // a.valid = true }) (nullKey : Bool)
    (localCache : Jvm → Option Activity) : State Thread Jvm where
  store :=
    { db := db
      voucherLock := none
      seckillLock := none
      activity := some db
      nullKey := nullKey
      localCache := localCache }
  tasks _ := none
  history := []
  attempts _ := none
  consumed _ := 0

end Hmdp.Voucher
