import Hmdp.Model.Types

/-!
# The Redisson Bloom filters

`SeckillVoucherBloomFilter`, one call after the other, and `ShopBloomFilter`, statement by
statement. Both keep a `ready` flag beside a filter in Redis.

* Of the Redis filter only the ids whose bits are all set are kept (`added`). It has no false
  negatives; whether it answers yes for another id is the environment's choice, so a partly
  carried out `add` needs no state of its own.
* Every call of Redisson may throw, and an `add` that throws may have been carried out (`Reply`).
* `expectedInsertions` and `falseProbability` only go into `tryInit`, and the logs are left out.
-/

namespace Hmdp.Model

/-- The ids in the filter after `bloomFilter.add(id)`. -/
def Reply.add (id : Long) (added : List Long) : Reply → List Long
  | .returns => id :: added
  | .throws applied => if applied then id :: added else added

/-- The ids of a collection: `null` has none, and its `null` elements are filtered out. -/
def nonNull (ids : Option (List (Option Long))) : List Long :=
  (ids.getD []).reduceOption

/-- `forEach(bloomFilter::add)`, with the reply of each call; the second component is whether it
ran to its end. -/
def addAll : List Long → List Reply → List Long → List Long × Bool
  | [], _, added => (added, true)
  | id :: ids, replies, added =>
    match replies.headD .returns with
    | .returns => addAll ids replies.tail (id :: added)
    | .throws applied => (Reply.add id added (.throws applied), false)

/-- The filter in Redis and the flag of an instance. -/
structure SeckillVoucherBloomFilter where
  added : List Long
  ready : Bool
  deriving DecidableEq

namespace SeckillVoucherBloomFilter

/-- `initialize`; the `catch` block lowers the flag. -/
def initializeIds (tryInit : Reply) (adds : List Reply) (voucherIds : Option (List (Option Long)))
    (f : SeckillVoucherBloomFilter) : SeckillVoucherBloomFilter :=
  match tryInit with
  | .throws _ => { f with ready := false }
  | .returns =>
    match addAll (nonNull voucherIds) adds f.added with
    | (added, completed) => ⟨added, completed⟩

/-- `ensureInitialized`: `tryInit` is only called while the flag is down. -/
def ensureInitialized (tryInit : Reply) (f : SeckillVoucherBloomFilter) : Reply :=
  if f.ready then .returns else tryInit

/-- `put`. -/
def put (tryInit add : Reply) (voucherId : Option Long) (f : SeckillVoucherBloomFilter) :
    SeckillVoucherBloomFilter :=
  match voucherId with
  | none => f
  | some id =>
    match f.ensureInitialized tryInit with
    | .throws _ => { f with ready := false }
    | .returns => ⟨add.add id f.added, decide (add = .returns)⟩

/-- `mightContain`; `contains` is `none` if the call of Redisson throws, else whether the filter
answers yes for an id it does not hold. -/
def mightContain (contains : Option Bool) (voucherId : Option Long)
    (f : SeckillVoucherBloomFilter) : Bool × SeckillVoucherBloomFilter :=
  match voucherId with
  | none => (false, f)
  | some id =>
    if !f.ready then (true, f)
    else
      match contains with
      | none => (true, { f with ready := false })
      | some falsePositive => (decide (id ∈ f.added) || falsePositive, f)

end SeckillVoucherBloomFilter

/-! ## `addAll` -/

theorem addAll_returns (ids : List Long) (replies : List Reply) (added : List Long) :
    (addAll ids replies added).2 = true ↔ ∀ r ∈ replies.take ids.length, r = .returns := by
  induction ids generalizing replies added with
  | nil => simp [addAll]
  | cons id ids ih =>
    cases replies with
    | nil => simpa [addAll] using ih [] (id :: added)
    | cons r replies =>
      simp only [addAll, List.headD_cons, List.tail_cons, List.length_cons, List.take_succ_cons,
        List.forall_mem_cons]
      cases r with
      | returns => simpa using ih replies (id :: added)
      | throws applied => simp

theorem addAll_completed {ids : List Long} {replies : List Reply} {added : List Long}
    (h : (addAll ids replies added).2 = true) {id : Long} :
    id ∈ (addAll ids replies added).1 ↔ id ∈ ids ∨ id ∈ added := by
  induction ids generalizing replies added with
  | nil => simp [addAll]
  | cons head ids ih =>
    simp only [addAll] at h ⊢
    cases hr : replies.headD .returns with
    | returns =>
      rw [hr] at h
      simp only at h ⊢
      rw [ih h, List.mem_cons, List.mem_cons, or_assoc, or_left_comm]
    | throws applied =>
      rw [hr] at h
      simp at h

/-! ## `ShopBloomFilter` -/

/-- The next statement of a call. -/
inductive ShopBloomPhase where
  /-- `initialize`: `bloomFilter.tryInit` -/
  | tryInit (ids : List Long)
  /-- `forEach(bloomFilter::add)` before `rest` -/
  | addAll (ids rest : List Long)
  /-- `ready = true` -/
  | setReady (ids : List Long)
  /-- `put`: `boolean initialized = ready` -/
  | readReady (id : Long)
  /-- the test of `ensureInitialized` -/
  | ensureInitialized (id : Long) (initialized : Bool)
  /-- its `tryInit` -/
  | tryInitAgain (id : Long) (initialized : Bool)
  /-- `bloomFilter.add` -/
  | add (id : Long) (initialized : Bool)
  /-- `ready = initialized` -/
  | restoreReady (id : Long) (initialized : Bool)
  /-- `ready = false` in the `catch` block of `initialize` and of `put` -/
  | fail (ids : List Long)
  /-- the test of `mightContain` -/
  | checkReady (id : Long)
  /-- `bloomFilter.contains` -/
  | contains (id : Long)
  /-- its `catch` block -/
  | failContains (id : Long)

/-- What follows a statement. -/
inductive ShopBloomOutcome where
  | goOn (phase : ShopBloomPhase)
  /-- an `initialize` or a `put` returns -/
  | returned (ids : List Long)
  | answered (id : Long) (result : Bool)

/-- The filter and the flag after a statement. -/
structure ShopBloomResult where
  added : List Long
  ready : Bool
  outcome : ShopBloomOutcome

/-- One statement; `falsePositive` is whether the filter answers yes for an id it does not hold. -/
def ShopBloomPhase.exec (reply : Reply) (falsePositive : Bool) (added : List Long) (ready : Bool) :
    ShopBloomPhase → ShopBloomResult
  | .tryInit ids =>
    ⟨added, ready, .goOn (if reply = .returns then .addAll ids ids else .fail ids)⟩
  | .addAll ids [] => ⟨added, ready, .goOn (.setReady ids)⟩
  | .addAll ids (id :: rest) =>
    ⟨reply.add id added, ready, .goOn (if reply = .returns then .addAll ids rest else .fail ids)⟩
  | .setReady ids => ⟨added, true, .returned ids⟩
  | .readReady id => ⟨added, ready, .goOn (.ensureInitialized id ready)⟩
  | .ensureInitialized id initialized =>
    ⟨added, ready, .goOn (if ready then .add id initialized else .tryInitAgain id initialized)⟩
  | .tryInitAgain id initialized =>
    ⟨added, ready, .goOn (if reply = .returns then .add id initialized else .fail [id])⟩
  | .add id initialized =>
    ⟨reply.add id added, ready,
      .goOn (if reply = .returns then .restoreReady id initialized else .fail [id])⟩
  | .restoreReady id initialized => ⟨added, initialized, .returned [id]⟩
  | .fail ids => ⟨added, false, .returned ids⟩
  | .checkReady id => ⟨added, ready, if ready then .goOn (.contains id) else .answered id true⟩
  | .contains id =>
    ⟨added, ready,
      if reply = .returns then .answered id (decide (id ∈ added) || falsePositive)
      else .goOn (.failContains id)⟩
  | .failContains id => ⟨added, false, .answered id true⟩

theorem Reply.subset_add (id : Long) (added : List Long) (reply : Reply) :
    added ⊆ reply.add id added := by
  cases reply with
  | returns => exact List.subset_cons_self id added
  | throws applied =>
    cases applied with
    | false => exact List.Subset.refl _
    | true => exact List.subset_cons_self id added

/-- The filter forgets nothing. -/
theorem ShopBloomPhase.subset_exec (reply : Reply) (falsePositive : Bool) (added : List Long)
    (ready : Bool) (phase : ShopBloomPhase) :
    added ⊆ (phase.exec reply falsePositive added ready).added := by
  cases phase with
  | addAll ids rest =>
    cases rest with
    | nil => exact List.Subset.refl _
    | cons id rest => exact reply.subset_add id added
  | add id initialized => exact reply.subset_add id added
  | _ => exact List.Subset.refl _

end Hmdp.Model
