import Hmdp.Model.Types
import Mathlib.Logic.Function.Basic

/-!
# The activity of one voucher and its caches

`VoucherServiceImpl.updateSeckillVoucher`, `SeckillVoucherRedisSynchronizer.synchronizeMetadata` and
`SeckillVoucherCacheService`, statement by statement, for one voucher: its two rows, the hash
`seckill:meta:<v>`, the null key and a Caffeine cache for each JVM. The voucher exists, as nothing
deletes one. Times are in milliseconds; the columns have seconds, so `column t` is what they keep of
the time `t` (`timestampColumn`). The Bloom filter answers "maybe", and the rebuild lock has a
lease, so it excludes nobody.
-/

namespace Hmdp.Model

/-- The two rows, the fields of the hash and `SeckillVoucherCacheDTO`. -/
structure Activity where
  beginTime : Time
  endTime : Time
  status : ℤ
  deriving DecidableEq

/-- `SeckillVoucherRedisSynchronizer.validate`. -/
def Activity.valid (a : Activity) : Bool :=
  decide (a.beginTime < a.endTime) && decide (1 ≤ a.status) && decide (a.status ≤ 3)

/-- What a `timestamp` column of MySQL keeps. -/
def timestampColumn (t : Time) : Time := (t + 500) / 1000 * 1000

/-- What the caches need of an update. -/
structure SeckillVoucherUpdateDTO where
  beginTime : Option Time
  endTime : Option Time
  status : Option ℤ
  /-- the title, the sub title, the rules, the pay value or the actual value is set -/
  otherChanges : Bool
  deriving DecidableEq

namespace SeckillVoucherUpdateDTO

variable (update : SeckillVoucherUpdateDTO)

/-- `tb_voucher` has something to change. -/
def hasVoucherChanges : Bool := update.otherChanges || update.status.isSome

/-- One of the times is set. -/
def hasTimeChanges : Bool := update.beginTime.isSome || update.endTime.isSome

/-- The fields of the update, and those of `old` where it has none. -/
def apply (old : Activity) : Activity where
  beginTime := update.beginTime.getD old.beginTime
  endTime := update.endTime.getD old.endTime
  status := update.status.getD old.status

/-- The update as the columns keep it. -/
def kept (column : Time → Time) : SeckillVoucherUpdateDTO :=
  { update with
    beginTime := update.beginTime.map column
    endTime := update.endTime.map column }

/-- The checks of `updateSeckillVoucher`. -/
def accepted (old : Activity) : Bool :=
  decide ((update.apply old).beginTime < (update.apply old).endTime) &&
    update.status.all fun status => decide (1 ≤ status) && decide (status ≤ 3)

end SeckillVoucherUpdateDTO

/-! ## Where a call stands -/

/-- The next statement of `updateSeckillVoucher`; `old` is what it has read. -/
inductive VoucherUpdatePhase where
  | select
  | patchVoucher (old : Activity)
  | patchSeckill (old : Activity)
  /-- `synchronizeMetadata` writes the hash -/
  | putAll (old : Activity)
  | localPut (old : Activity)
  | commit (old : Activity)
  | afterCommit
  /-- rolled back: the compensation writes the hash -/
  | restore (old : Activity)
  | restoreLocal (old : Activity)
  | finished
  deriving DecidableEq

/-- The next statement of `loadFromDatabase`. -/
inductive LoadPhase where
  | readSeckill
  | readVoucher (beginTime endTime : Time)
  | putAll (read : Activity)
  | localPut (read : Activity)
  | done (read : Activity)
  /-- `validate` has thrown -/
  | failed
  deriving DecidableEq

/-- The next statement of `queryById`. -/
inductive VoucherQueryPhase where
  | localGet
  | readRedis
  | localPut (found : Activity)
  | isNullCached
  | tryLock
  | lastReadRedis
  | secondLocalGet
  | secondReadRedis
  | secondIsNullCached
  | load (phase : LoadPhase)
  | returning (result : Option Activity)
  deriving DecidableEq

/-- The next statement of the task of `rebuildAsynchronously`. -/
inductive RebuildPhase where
  | tryLock
  | secondCheck
  | load (phase : LoadPhase)
  | finished
  deriving DecidableEq

/-! ## Statements -/

variable {Thread Jvm : Type} [DecidableEq Thread] [DecidableEq Jvm]

/-- The row of one voucher, the locks on it, and the caches. -/
structure VoucherStore (Thread Jvm : Type) where
  /-- the committed rows -/
  db : Activity
  /-- who has changed the row of `tb_voucher` and not ended its transaction -/
  voucherLock : Option Thread
  /-- the same for `tb_seckill_voucher` -/
  seckillLock : Option Thread
  /-- `seckill:meta:<v>` -/
  activity : Option Activity
  nullKey : Bool
  localCache : Jvm → Option Activity

namespace VoucherStore

variable (s : VoucherStore Thread Jvm)

/-- The activity hash is written or deleted. -/
def setActivity (a : Option Activity) : VoucherStore Thread Jvm := { s with activity := a }

/-- The L1 entry of the JVM is dropped. -/
def invalidateLocal (jvm : Jvm) : VoucherStore Thread Jvm :=
  { s with localCache := Function.update s.localCache jvm none }

/-- The end of `synchronizeMetadata`: the null key is deleted, the local cache filled. -/
def putLocal (jvm : Jvm) (a : Activity) : VoucherStore Thread Jvm :=
  { s with nullKey := false, localCache := Function.update s.localCache jvm (some a) }

/-- A transaction ends. -/
def unlock (th : Thread) : VoucherStore Thread Jvm :=
  { s with
    voucherLock := if s.voucherLock = some th then none else s.voucherLock
    seckillLock := if s.seckillLock = some th then none else s.seckillLock }

/-- `none` where the statement waits for a row lock. -/
def update (column : Time → Time) (th : Thread) (jvm : Jvm) (u : SeckillVoucherUpdateDTO) :
    VoucherUpdatePhase → Option (VoucherStore Thread Jvm × VoucherUpdatePhase)
  | .select => some (s, if u.accepted s.db then .patchVoucher s.db else .finished)
  | .patchVoucher old =>
    if !u.hasVoucherChanges then some (s, .patchSeckill old)
    else if s.voucherLock = none ∨ s.voucherLock = some th then
      some ({ s with voucherLock := some th }, .patchSeckill old)
    else none
  | .patchSeckill old =>
    if !u.hasTimeChanges then some (s, .putAll old)
    else if s.seckillLock = none ∨ s.seckillLock = some th then
      some ({ s with seckillLock := some th }, .putAll old)
    else none
  | .putAll old =>
    if (u.apply old).valid then some (s.setActivity (some (u.apply old)), .localPut old)
    else some (s.unlock th, .restore old)
  | .localPut old => some (s.putLocal jvm (u.apply old), .commit old)
  | .commit _ => some ({ s.unlock th with db := (u.kept column).apply s.db }, .afterCommit)
  | .afterCommit => some (s.invalidateLocal jvm, .finished)
  | .restore old =>
    if old.valid then some (s.setActivity (some old), .restoreLocal old) else some (s, .finished)
  | .restoreLocal old => some (s.putLocal jvm old, .finished)
  | .finished => none

/-- The next statement of a load in the JVM; `none` where it has ended. -/
def load (jvm : Jvm) : LoadPhase → Option (VoucherStore Thread Jvm × LoadPhase)
  | .readSeckill => some (s, .readVoucher s.db.beginTime s.db.endTime)
  | .readVoucher beginTime endTime => some (s, .putAll ⟨beginTime, endTime, s.db.status⟩)
  | .putAll read =>
    if read.valid then some (s.setActivity (some read), .localPut read) else some (s, .failed)
  | .localPut read => some (s.putLocal jvm read, .done read)
  | .done _ => none
  | .failed => none

/-- After a `readRedis` whose hit goes to the local cache. -/
def afterRead (miss : VoucherQueryPhase) : VoucherQueryPhase :=
  match s.activity with
  | some a => .localPut a
  | none => miss

/-- `locked` is what `tryLock` would answer. -/
def query (jvm : Jvm) (locked : Bool) :
    VoucherQueryPhase → Option (VoucherStore Thread Jvm × VoucherQueryPhase)
  | .localGet =>
    match s.localCache jvm with
    | some a => some (s, .returning (some a))
    | none => some (s, .readRedis)
  | .readRedis => some (s, s.afterRead .isNullCached)
  | .localPut found =>
    some ({ s with localCache := Function.update s.localCache jvm (some found) },
      .returning (some found))
  | .isNullCached => some (s, if s.nullKey then .returning none else .tryLock)
  | .tryLock => some (s, if locked then .secondLocalGet else .lastReadRedis)
  | .lastReadRedis => some (s, .returning s.activity)
  | .secondLocalGet =>
    match s.localCache jvm with
    | some a => some (s, .returning (some a))
    | none => some (s, .secondReadRedis)
  | .secondReadRedis => some (s, s.afterRead .secondIsNullCached)
  | .secondIsNullCached => some (s, if s.nullKey then .returning none else .load .readSeckill)
  | .load (.done read) => some (s, .returning (some read))
  | .load phase => (s.load jvm phase).map fun r => (r.1, .load r.2)
  | .returning _ => none

/-- `expired` is whether the hash's logical expiry has passed. -/
def rebuild (jvm : Jvm) (locked expired : Bool) :
    RebuildPhase → Option (VoucherStore Thread Jvm × RebuildPhase)
  | .tryLock => some (s, if locked then .secondCheck else .finished)
  | .secondCheck =>
    some (s, if s.activity.isSome && !expired then .finished else .load .readSeckill)
  | .load (.done _) => some (s, .finished)
  | .load phase => (s.load jvm phase).map fun r => (r.1, .load r.2)
  | .finished => none

end VoucherStore

end Hmdp.Model
