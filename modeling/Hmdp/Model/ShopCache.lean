import Hmdp.Model.Types
import Mathlib.Logic.Function.Basic

/-!
# The shop caches

`ShopCacheServiceImpl.queryById`, `ShopServiceImpl.update` and `saveShop`, and
`ShopCacheInvalidationHandler.evict`, statement by statement over a Caffeine cache for each JVM
(`local`), Redis and `tb_shop`. No statement looks into a shop, so `Shop` is any type, and an
update's non-null fields are a function on it. In Redis a shop's JSON is kept as the shop and the
empty null marker as `none`. The local cache is enabled and the Bloom filter answers "maybe".

The rebuild lock `lock:shop:<id>` has a lease and may run out, so the rebuilding section excludes
nobody here: `tryLock` may succeed at any time.

A value in a cache or on its way into one carries the number of writes to the shop that were
committed when it was read from the table (`Versioned`); no statement looks at it.
-/

namespace Hmdp.Model

/-- `tb_shop.id` -/
abbrev ShopId := Long

/-- A value, with the number of the write it comes from. -/
structure Versioned (α : Type) where
  value : α
  /-- ghost -/
  version : ℕ
  deriving DecidableEq

/-- The value as the Redis entry of a row that exists. -/
def Versioned.found {α : Type} (x : Versioned α) : Versioned (Option α) := ⟨some x.value, x.version⟩

/-- Where a `queryById` stands: the statement that is next. -/
inductive ReadPhase (Shop : Type) where
  /-- the READ lock is not held yet -/
  | waiting
  | localGet
  | readRedis
  | tryLock
  /-- `readLastChance` -/
  | lastLocalGet
  | lastReadRedis
  /-- it throws -/
  | timedOut
  | secondLocalGet
  | secondReadRedis
  | databaseFallback
  | cacheNull (version : ℕ)
  | localInvalidate (version : ℕ)
  | cacheShop (shop : Versioned Shop)
  | localPut (shop : Versioned Shop)
  | returning (result : Versioned (Option Shop))
  deriving DecidableEq

/-- Where a write or an eviction stands. -/
inductive WritePhase where
  /-- the WRITE lock is not held yet -/
  | waiting
  | getById
  /-- the transaction's statements and its commit are next -/
  | commit
  | localInvalidate
  | redisDelete
  | returning
  deriving DecidableEq

variable {Jvm Shop : Type} [DecidableEq Jvm]

/-- The stores. -/
structure ShopStore (Jvm Shop : Type) where
  localCache : Jvm → ShopId → Option (Versioned Shop)
  /-- `cache:shop:<id>` -/
  redis : ShopId → Option (Versioned (Option Shop))
  /-- the committed rows of `tb_shop` -/
  db : ShopId → Option Shop
  /-- ghost: the rows the writes to the shop have committed, in order -/
  history : ShopId → List Shop

namespace ShopStore

/-- The L1 entry of the JVM. -/
def putLocal (s : ShopStore Jvm Shop) (jvm : Jvm) (id : ShopId) (shop : Option (Versioned Shop)) :
    ShopStore Jvm Shop :=
  { s with localCache :=
      Function.update s.localCache jvm (Function.update (s.localCache jvm) id shop) }

/-- The L2 entry. -/
def setRedis (s : ShopStore Jvm Shop) (id : ShopId) (shop : Option (Versioned (Option Shop))) :
    ShopStore Jvm Shop :=
  { s with redis := Function.update s.redis id shop }

/-- The transaction of a write commits. -/
def commit (s : ShopStore Jvm Shop) (id : ShopId) (shop : Shop) : ShopStore Jvm Shop :=
  { s with
    db := Function.update s.db id (some shop)
    history := Function.update s.history id (s.history id ++ [shop]) }

/-- The row as the database returns it now. -/
def selectById (s : ShopStore Jvm Shop) (id : ShopId) : Versioned (Option Shop) :=
  ⟨s.db id, (s.history id).length⟩

end ShopStore

/-- After a lookup in the local cache; `miss` is next where it has nothing. -/
def ReadPhase.ofLocal (found : Option (Versioned Shop)) (miss : ReadPhase Shop) :
    ReadPhase Shop :=
  match found with
  | some shop => .returning shop.found
  | none => miss

/-- After a `readRedis`: a shop, the null marker, or a miss. -/
def ReadPhase.ofRedis (found : Option (Versioned (Option Shop))) (miss : ReadPhase Shop) :
    ReadPhase Shop :=
  match found with
  | some ⟨some shop, version⟩ => .localPut ⟨shop, version⟩
  | some ⟨none, version⟩ => .returning ⟨none, version⟩
  | none => miss

/-- The next statement of `queryById`; `locked` is what `tryLock` would answer. -/
def ShopStore.query (s : ShopStore Jvm Shop) (jvm : Jvm) (id : ShopId) (locked : Bool) :
    ReadPhase Shop → Option (ShopStore Jvm Shop × ReadPhase Shop)
  | .localGet => some (s, .ofLocal (s.localCache jvm id) .readRedis)
  | .readRedis => some (s, .ofRedis (s.redis id) .tryLock)
  | .tryLock => some (s, if locked then .secondLocalGet else .lastLocalGet)
  | .lastLocalGet => some (s, .ofLocal (s.localCache jvm id) .lastReadRedis)
  | .lastReadRedis => some (s, .ofRedis (s.redis id) .timedOut)
  | .secondLocalGet => some (s, .ofLocal (s.localCache jvm id) .secondReadRedis)
  | .secondReadRedis => some (s, .ofRedis (s.redis id) .databaseFallback)
  | .databaseFallback =>
    match s.selectById id with
    | ⟨some shop, version⟩ => some (s, .cacheShop ⟨shop, version⟩)
    | ⟨none, version⟩ => some (s, .cacheNull version)
  | .cacheNull version => some (s.setRedis id (some ⟨none, version⟩), .localInvalidate version)
  | .localInvalidate version => some (s.putLocal jvm id none, .returning ⟨none, version⟩)
  | .cacheShop shop => some (s.setRedis id (some shop.found), .localPut shop)
  | .localPut shop => some (s.putLocal jvm id (some shop), .returning shop.found)
  | .waiting => none
  | .timedOut => none
  | .returning _ => none

/-- The next statement of `evict`, by the handler or after a commit. -/
def ShopStore.evict (s : ShopStore Jvm Shop) (jvm : Jvm) (id : ShopId) :
    WritePhase → Option (ShopStore Jvm Shop × WritePhase)
  | .localInvalidate => some (s.putLocal jvm id none, .redisDelete)
  | .redisDelete => some (s.setRedis id none, .returning)
  | _ => none

/-- The next statement of `update`; `patch` sets the non-null fields. -/
def ShopStore.update (s : ShopStore Jvm Shop) (jvm : Jvm) (id : ShopId) (patch : Shop → Shop) :
    WritePhase → Option (ShopStore Jvm Shop × WritePhase)
  | .getById => some (s, if (s.db id).isSome then .commit else .returning)
  | .commit =>
    match s.db id with
    | some shop => some (s.commit id (patch shop), .localInvalidate)
    | none => some (s, .returning)
  | phase => s.evict jvm id phase

/-- The next statement of `saveShop`; the id is a new one of the table's. -/
def ShopStore.saveShop (s : ShopStore Jvm Shop) (jvm : Jvm) (id : ShopId) (shop : Shop) :
    WritePhase → Option (ShopStore Jvm Shop × WritePhase)
  | .commit => if (s.db id).isNone then some (s.commit id shop, .localInvalidate) else none
  | phase => s.evict jvm id phase

end Hmdp.Model
