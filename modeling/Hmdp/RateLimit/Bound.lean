import Hmdp.Lib.TokenBucket
import Hmdp.Model.TokenBucket

/-!
# The rate bound of the token buckets

Redis time passes, the policy hashes change, keys expire and calls with any arguments run. Fix a
bucket whose calls all have a capacity of at most `capacity` and a window of at least
`windowMillis`. Beside it runs the ideal bucket of that capacity, refilled in one window, from which
the calls that return 0 spend. The script's bucket never shows more tokens than the ideal one holds,
now or at any later time (`Covered`), so every such call is a spend of the ideal bucket, and the
bound is the ideal bucket's. A key expires only when the ideal bucket is full again.

The script's clock has milliseconds, so a window counts with its ends rounded down.

* `tokenBucketLua_bucket`: what a call does to one bucket.
* **`rate_bound`**: the bound, and that a rejected call spends nothing.
-/

namespace Hmdp.RateLimit

open Hmdp.Lib Hmdp.Model

/-! ## The machine -/

/-- A call that has returned 0. -/
structure Grant where
  keys : RateKeys
  time : ℕ
  deriving DecidableEq

/-- Redis and what has been granted. -/
structure State where
  redis : RateRedis
  /-- ghost -/
  granted : List Grant

/-- The steps: time, a change of the policy, a run of the script, the expiry of a bucket. -/
inductive Action where
  | tick (later : ℕ)
  | setPolicy (voucherId : VoucherId) (scene : SeckillRateLimitScene) (policy : RatePolicy)
  | execute (keys : RateKeys) (args : RateArgs)
  | expire (k : BucketKey)

/-- Nothing granted yet. -/
def State.start (redis : RateRedis) : State := ⟨redis, []⟩

/-- The time as the script reads it. -/
def State.now (s : State) : ℕ := nowMillis s.redis.time

/-- One step; `none` where the clock would go back. -/
def step (s : State) : Action → Option State
  | .tick later =>
    if s.redis.time ≤ later then some { s with redis := { s.redis with time := later } } else none
  | .setPolicy voucherId scene policy =>
    let policies := Function.update s.redis.policy voucherId
      (Function.update (s.redis.policy voucherId) scene policy)
    some { s with redis := { s.redis with policy := policies } }
  | .execute keys args =>
    let called := tokenBucketLua keys args s.redis
    let grants := if called.1 = some .allowed then [⟨keys, s.redis.time⟩] else []
    some ⟨called.2, s.granted ++ grants⟩
  | .expire k =>
    match (s.redis.buckets k).bind Bucket.expireAt with
    | some expireAt =>
      if expireAt ≤ s.now then some { s with redis := s.redis.write k none } else none
    | none => none

/-! ## The bound -/

/-- The claimed bounds of a bucket's effective capacity and window. -/
structure RateBound where
  capacity : ℚ
  windowMillis : ℚ
  one_le_capacity : 1 ≤ capacity
  window_pos : 0 < windowMillis

namespace RateBound

variable (bound : RateBound)

theorem capacity_nonneg : 0 ≤ bound.capacity := zero_le_one.trans bound.one_le_capacity

/-- The ideal bucket. -/
def ideal : TokenBucket ℚ where
  capacity := bound.capacity
  rate := bound.capacity / bound.windowMillis
  capacity_nonneg := bound.capacity_nonneg
  rate_nonneg := div_nonneg bound.capacity_nonneg bound.window_pos.le

/-- The bound as a limit of the script. -/
def limit : Limit := ⟨bound.windowMillis, bound.capacity⟩

/-- The capacity lies in `[1, capacity]` and the window is at least `windowMillis`. -/
def Admits (l : Limit) : Prop :=
  bound.windowMillis ≤ l.windowMillis ∧ 1 ≤ l.capacity ∧ l.capacity ≤ bound.capacity

instance (l : Limit) : Decidable (bound.Admits l) := inferInstanceAs (Decidable (_ ∧ _))

end RateBound

/-- The limit a call uses a bucket with. -/
def limitOf (keys : RateKeys) (args : RateArgs) (redis : RateRedis) (k : BucketKey) :
    Option Limit :=
  let policy := redis.policy keys.voucherId keys.scene
  if k = keys.ipBucketKey then some (ipLimit policy args)
  else if k = keys.userBucketKey then some (userLimit policy args)
  else none

/-- A call that uses the bucket `k` uses it within the bound. -/
def UsesWithin (bound : RateBound) (k : BucketKey) (s : State) : Action → Prop
  | .execute keys args => (limitOf keys args s.redis k).all fun l => decide (bound.Admits l)
  | _ => True

instance (bound : RateBound) (k : BucketKey) (s : State) :
    ∀ a, Decidable (UsesWithin bound k s a)
  | .tick _ => isTrue trivial
  | .setPolicy _ _ _ => isTrue trivial
  | .execute _ _ => inferInstanceAs (Decidable (_ = true))
  | .expire _ => isTrue trivial

/-- The bucket is one of the two the call was charged to. -/
def Grant.uses (g : Grant) (k : BucketKey) : Bool :=
  decide (k = g.keys.ipBucketKey) || decide (k = g.keys.userBucketKey)

/-- The `TIME` of the call in milliseconds. -/
def Grant.millis (g : Grant) : ℚ := g.time / 1000

/-- The calls using `k` that have returned 0 within `[t1, t2]`. -/
def State.grantedWithin (s : State) (k : BucketKey) (t1 t2 : ℚ) : ℕ :=
  s.granted.countP fun g => g.uses k && decide (t1 ≤ g.millis ∧ g.millis ≤ t2)

/-- When the calls using `k` have returned 0, by the script's clock. -/
def grantTimes (k : BucketKey) (granted : List Grant) : List ℚ :=
  (granted.filter fun g => g.uses k).map fun g => (nowMillis g.time : ℚ)

/-- The call is rejected because of a bucket. -/
def Rejected (reply : Option RateCode) : Prop :=
  reply = some .ipExceeded ∨ reply = some .userExceeded

/-- A call leaves in each of its buckets the tokens it has found there at its time. -/
def TakesNothing (keys : RateKeys) (args : RateArgs) (redis redis' : RateRedis) : Prop :=
  ∀ k l, limitOf keys args redis k = some l →
    ∃ b, redis'.buckets k = some b ∧ b.lastMillis = some (nowMillis redis.time : ℚ) ∧
      b.tokens = some (preview (nowMillis redis.time) (redis.buckets k) l)

variable {bound : RateBound} {k : BucketKey} {keys : RateKeys} {args : RateArgs}
  {redis : RateRedis} {s t : State}

/-! ## Previews and written buckets -/

/-- A preview within the bound is at most the one with the bound's own limit. -/
theorem preview_le_preview {now : ℚ} {bucket : Option Bucket} {l : Limit} (h : bound.Admits l) :
    preview now bucket l ≤ preview now bucket bound.limit := by
  obtain ⟨hwindow, hone, hcap⟩ := h
  have hl : 0 < l.windowMillis := bound.window_pos.trans_le hwindow
  unfold preview
  split
  · rename_i lastMillis tokens hlast htokens
    have hrate : l.capacity / l.windowMillis ≤ bound.capacity / bound.windowMillis :=
      div_le_div₀ bound.capacity_nonneg hcap bound.window_pos hwindow
    have hrefill : max 0 (now - lastMillis) * l.capacity / l.windowMillis ≤
        max 0 (now - lastMillis) * bound.capacity / bound.windowMillis := by
      rw [mul_div_assoc, mul_div_assoc]
      exact mul_le_mul_of_nonneg_left hrate (le_max_left _ _)
    rw [if_neg hl.ne', if_neg (show bound.limit.windowMillis ≠ 0 from bound.window_pos.ne')]
    exact min_le_min hcap (add_le_add_right hrefill _)
  · exact hcap

theorem preview_le_capacity (now : ℚ) (bucket : Option Bucket) (l : Limit) :
    preview now bucket l ≤ l.capacity := by
  unfold preview
  split
  · split
    · exact le_rfl
    · exact min_le_left _ _
  · exact le_rfl

/-- What the bound's limit previews of a bucket last written at `since`. -/
theorem preview_limit {now since tokens : ℚ} {bucket : Bucket} (h : since ≤ now)
    (hlast : bucket.lastMillis = some since) (htokens : bucket.tokens = some tokens) :
    preview now (some bucket) bound.limit =
      min bound.ideal.capacity (tokens + (now - since) * bound.ideal.rate) := by
  simp only [preview, Option.bind_some, hlast, htokens]
  rw [if_neg (show bound.limit.windowMillis ≠ 0 from bound.window_pos.ne'),
    max_eq_right (sub_nonneg.mpr h), mul_div_assoc]
  rfl

/-- An expiry the script sets is two windows away. -/
theorem pexpireMillis_eq_some {windowMillis : ℚ} {millis : ℤ}
    (h : pexpireMillis windowMillis = some millis) : windowMillis * 2 ≤ (millis : ℚ) := by
  unfold pexpireMillis at h
  simp only at h
  split at h
  · rename_i hmillis
    cases h
    rw [(Rat.den_eq_one_iff _).mp hmillis.1]
    exact le_max_right _ _
  · cases h

/-- The expiry of a persisted bucket is the one before, where `PEXPIRE` has failed, or a new one. -/
theorem persist_expireAt {now : ℕ} {bucket : Option Bucket} {windowMillis tokens : ℚ}
    {consume : Bool} {expireAt : ℤ}
    (h : (persist now bucket windowMillis tokens consume).1.expireAt = some expireAt) :
    (pexpireMillis windowMillis = none ∧ bucket.bind Bucket.expireAt = some expireAt) ∨
      (now : ℚ) + windowMillis * 2 ≤ (expireAt : ℚ) := by
  unfold persist at h
  cases hmillis : pexpireMillis windowMillis with
  | none =>
    rw [hmillis] at h
    exact Or.inl ⟨rfl, h⟩
  | some millis =>
    rw [hmillis] at h
    cases h
    right
    push_cast
    exact add_le_add_right (pexpireMillis_eq_some hmillis) _

theorem persist_tokens (now : ℕ) (bucket : Option Bucket) (windowMillis tokens : ℚ)
    (consume : Bool) :
    (persist now bucket windowMillis tokens consume).1.tokens =
      some (if consume then tokens - 1 else tokens) := by
  unfold persist
  cases pexpireMillis windowMillis <;> rfl

theorem persist_lastMillis (now : ℕ) (bucket : Option Bucket) (windowMillis tokens : ℚ)
    (consume : Bool) :
    (persist now bucket windowMillis tokens consume).1.lastMillis = some (now : ℚ) := by
  unfold persist
  cases pexpireMillis windowMillis <;> rfl

/-! ## What a call does to a bucket -/

theorem nowMillis_eq (time : ℕ) : nowMillis time = time / 1000 := by
  unfold nowMillis
  omega

theorem nowMillis_mono {time later : ℕ} (h : time ≤ later) : nowMillis time ≤ nowMillis later := by
  rw [nowMillis_eq, nowMillis_eq]
  exact Nat.div_le_div_right h

theorem persist_snd (now : ℕ) (bucket : Option Bucket) (windowMillis tokens : ℚ) (consume : Bool) :
    (persist now bucket windowMillis tokens consume).2 = (pexpireMillis windowMillis).isSome := by
  unfold persist
  cases pexpireMillis windowMillis <;> rfl

theorem userBucketKey_ne_ipBucketKey (keys : RateKeys) :
    keys.userBucketKey ≠ keys.ipBucketKey := nofun

/-- Both buckets of the call have a token. -/
def consumes (keys : RateKeys) (args : RateArgs) (redis : RateRedis) : Bool :=
  let policy := redis.policy keys.voucherId keys.scene
  let now : ℚ := nowMillis redis.time
  decide (1 ≤ preview now (redis.buckets keys.ipBucketKey) (ipLimit policy args)) &&
    decide (1 ≤ preview now (redis.buckets keys.userBucketKey) (userLimit policy args))

theorem limitOf_ip : limitOf keys args redis keys.ipBucketKey =
    some (ipLimit (redis.policy keys.voucherId keys.scene) args) := if_pos rfl

theorem limitOf_user : limitOf keys args redis keys.userBucketKey =
    some (userLimit (redis.policy keys.voucherId keys.scene) args) := by
  unfold limitOf
  rw [if_neg (userBucketKey_ne_ipBucketKey keys), if_pos rfl]

/-- What a call persists for a bucket it uses with the limit `l`. -/
def persisted (keys : RateKeys) (args : RateArgs) (redis : RateRedis) (k : BucketKey) (l : Limit) :
    Bucket :=
  let now := nowMillis redis.time
  (persist now (redis.buckets k) l.windowMillis (preview now (redis.buckets k) l)
    (consumes keys args redis)).1

/-- The script ends with an error after its first bucket, or writes both. -/
theorem tokenBucketLua_cases (keys : RateKeys) (args : RateArgs) (redis : RateRedis) :
    let policy := redis.policy keys.voucherId keys.scene
    let ip := ipLimit policy args
    let user := userLimit policy args
    let afterIp := redis.write keys.ipBucketKey
      (some (persisted keys args redis keys.ipBucketKey ip))
    tokenBucketLua keys args redis = (none, afterIp) ∨
      ∃ reply, tokenBucketLua keys args redis =
          (reply, afterIp.write keys.userBucketKey
            (some (persisted keys args redis keys.userBucketKey user))) ∧
        (reply.isSome = true → (pexpireMillis ip.windowMillis).isSome = true ∧
          (pexpireMillis user.windowMillis).isSome = true) ∧
        (reply = some .allowed → consumes keys args redis = true) ∧
        (Rejected reply → consumes keys args redis = false) := by
  intro policy ip user afterIp
  unfold tokenBucketLua
  simp only [persist_snd]
  split
  · exact Or.inl rfl
  · rename_i hip
    right
    split
    · exact ⟨none, rfl, nofun, nofun, nofun⟩
    · rename_i huser
      have hexpire : (pexpireMillis ip.windowMillis).isSome = true ∧
          (pexpireMillis user.windowMillis).isSome = true := by
        simpa [ip, user, policy, Option.isSome_iff_ne_none] using And.intro hip huser
      split
      · rename_i hno
        refine ⟨some .ipExceeded, rfl, fun _ => hexpire, nofun, fun _ => ?_⟩
        unfold consumes
        simp_all
      · rename_i hipOk
        split
        · rename_i hno
          refine ⟨some .userExceeded, rfl, fun _ => hexpire, nofun, fun _ => ?_⟩
          unfold consumes
          simp_all
        · rename_i huserOk
          refine ⟨some .allowed, rfl, fun _ => hexpire, fun _ => ?_, nofun⟩
          unfold consumes
          simp_all

theorem tokenBucketLua_fst (keys : RateKeys) (args : RateArgs) (redis : RateRedis) :
    ((tokenBucketLua keys args redis).1 = some .allowed → consumes keys args redis = true) ∧
      (Rejected (tokenBucketLua keys args redis).1 → consumes keys args redis = false) := by
  rcases tokenBucketLua_cases keys args redis with hcall | ⟨reply, hcall, -, hallowed, hrejected⟩
  · rw [hcall]
    exact ⟨nofun, nofun⟩
  · rw [hcall]
    exact ⟨hallowed, hrejected⟩

/-- A call that consumes has found a token in each of its buckets. -/
theorem one_le_of_consumes {l : Limit} (hl : limitOf keys args redis k = some l)
    (hconsumes : consumes keys args redis = true) :
    1 ≤ preview (nowMillis redis.time) (redis.buckets k) l := by
  unfold consumes at hconsumes
  simp only [Bool.and_eq_true, decide_eq_true_eq] at hconsumes
  unfold limitOf at hl
  simp only at hl
  split at hl
  · rename_i hip
    cases hl
    rw [hip]
    exact hconsumes.1
  · split at hl
    · rename_i huser
      cases hl
      rw [huser]
      exact hconsumes.2
    · cases hl

/-- **A call and one bucket.** A bucket the call does not use stays. The others are persisted from
their preview, unless the script has ended with an error before. -/
theorem tokenBucketLua_bucket (keys : RateKeys) (args : RateArgs) (redis : RateRedis)
    (k : BucketKey) :
    let called := tokenBucketLua keys args redis
    (called.2.buckets k = redis.buckets k ∧
        (called.1.isSome = true → limitOf keys args redis k = none)) ∨
      ∃ l, limitOf keys args redis k = some l ∧
        called.2.buckets k = some (persisted keys args redis k l) ∧
        (called.1.isSome = true → (pexpireMillis l.windowMillis).isSome = true) := by
  intro called
  have hne := userBucketKey_ne_ipBucketKey keys
  by_cases hip : k = keys.ipBucketKey
  · subst hip
    refine Or.inr ⟨_, limitOf_ip, ?_⟩
    rcases tokenBucketLua_cases keys args redis with hcall | ⟨reply, hcall, hexpire, -⟩
    · simp [called, hcall, RateRedis.write]
    · simp only [called, hcall, RateRedis.write]
      rw [Function.update_of_ne hne.symm, Function.update_self]
      exact ⟨rfl, fun h => (hexpire h).1⟩
  · by_cases huser : k = keys.userBucketKey
    · subst huser
      rcases tokenBucketLua_cases keys args redis with hcall | ⟨reply, hcall, hexpire, -⟩
      · left
        simp [called, hcall, RateRedis.write, hip]
      · refine Or.inr ⟨_, limitOf_user, ?_⟩
        simp only [called, hcall, RateRedis.write]
        rw [Function.update_self]
        exact ⟨rfl, fun h => (hexpire h).2⟩
    · left
      refine ⟨?_, fun _ => (if_neg hip).trans (if_neg huser)⟩
      rcases tokenBucketLua_cases keys args redis with hcall | ⟨reply, hcall, -⟩
      · simp [called, hcall, RateRedis.write, hip]
      · simp [called, hcall, RateRedis.write, hip, huser]

/-! ## The ideal bucket covers the script's -/

/-- From `now` on the script's bucket never shows more tokens than the ideal one holds, and the
ideal one is full when the key expires. -/
structure Covers (bound : RateBound) (h : TokenBucket.Held ℚ) (now : ℚ) (bucket : Option Bucket) :
    Prop where
  nonneg : 0 ≤ h.tokens
  since_le : h.since ≤ now
  preview_le : ∀ t, now ≤ t → preview t bucket bound.limit ≤ bound.ideal.level h t
  full_of_expired : ∀ expireAt : ℤ, bucket.bind Bucket.expireAt = some expireAt →
    ∀ t, now ≤ t → (expireAt : ℚ) ≤ t → bound.ideal.level h t = bound.capacity

variable {h : TokenBucket.Held ℚ} {bucket : Option Bucket}

/-- A full bucket covers whatever Redis has. -/
theorem covers_full (bound : RateBound) (now : ℚ) (bucket : Option Bucket) :
    Covers bound (bound.ideal.full now) now bucket where
  nonneg := bound.capacity_nonneg
  since_le := le_rfl
  preview_le t ht := (preview_le_capacity t bucket _).trans (TokenBucket.level_full ht).ge
  full_of_expired _ _ _ ht _ := TokenBucket.level_full ht

theorem Covers.later {now later : ℚ} (hc : Covers bound h now bucket) (hle : now ≤ later) :
    Covers bound h later bucket where
  nonneg := hc.nonneg
  since_le := hc.since_le.trans hle
  preview_le t ht := hc.preview_le t (hle.trans ht)
  full_of_expired expireAt he t ht := hc.full_of_expired expireAt he t (hle.trans ht)

theorem Covers.expire {now : ℚ} {expireAt : ℤ} (hc : Covers bound h now bucket)
    (he : bucket.bind Bucket.expireAt = some expireAt) (hle : (expireAt : ℚ) ≤ now) :
    Covers bound h now none where
  nonneg := hc.nonneg
  since_le := hc.since_le
  preview_le t ht :=
    (hc.full_of_expired expireAt he t ht (hle.trans ht)).ge.trans' (preview_le_capacity t none _)
  full_of_expired _ hnone := nomatch hnone

/-- The bucket is full again a window after `now`. -/
theorem level_of_window {now t : ℚ} (h0 : 0 ≤ h.tokens) (hsince : h.since ≤ now)
    (ht : now + bound.windowMillis ≤ t) : bound.ideal.level h t = bound.capacity := by
  refine TokenBucket.level_of_full h0 ?_
  have hwindow : bound.windowMillis ≤ t - h.since := by linarith
  calc bound.capacity
      = bound.windowMillis * (bound.capacity / bound.windowMillis) :=
        (mul_div_cancel₀ bound.capacity bound.window_pos.ne').symm
    _ ≤ (t - h.since) * (bound.capacity / bound.windowMillis) :=
        mul_le_mul_of_nonneg_right hwindow bound.ideal.rate_nonneg

/-- A bucket written at `now` with no more than the level is covered. -/
theorem covers_persist {now : ℕ} {l : Limit} {tokens : ℚ} {consume : Bool} (h0 : 0 ≤ h.tokens)
    (hsince : h.since ≤ now) (hl : bound.Admits l)
    (hlevel : (if consume then tokens - 1 else tokens) ≤ bound.ideal.level h now)
    (hkept : pexpireMillis l.windowMillis = none → ∀ expireAt : ℤ,
      bucket.bind Bucket.expireAt = some expireAt → ∀ t, (now : ℚ) ≤ t → (expireAt : ℚ) ≤ t →
        bound.ideal.level h t = bound.capacity) :
    Covers bound h now (some (persist now bucket l.windowMillis tokens consume).1) where
  nonneg := h0
  since_le := hsince
  preview_le t ht := by
    rw [preview_limit ht (persist_lastMillis _ _ _ _ _) (persist_tokens _ _ _ _ _)]
    exact TokenBucket.refill_le_level hlevel ht le_rfl le_rfl
  full_of_expired expireAt he t ht hle := by
    rcases persist_expireAt he with ⟨hfailed, hold⟩ | hnew
    · exact hkept hfailed expireAt hold t ht hle
    · refine level_of_window h0 hsince ?_
      have hpos := bound.window_pos
      have hwindow := hl.1
      linarith

/-- A call that does not return 0 leaves the ideal bucket alone. -/
theorem Covers.written {now : ℕ} {l : Limit} (hc : Covers bound h now bucket)
    (hl : bound.Admits l) (consume : Bool) :
    Covers bound h now
      (some (persist now bucket l.windowMillis (preview now bucket l) consume).1) := by
  have hseen : preview now bucket l ≤ bound.ideal.level h now :=
    (preview_le_preview hl).trans (hc.preview_le now le_rfl)
  refine covers_persist hc.nonneg hc.since_le hl ?_ fun _ => hc.full_of_expired
  split
  · exact (sub_le_self _ zero_le_one).trans hseen
  · exact hseen

/-- A call that returns 0 is a spend of the ideal bucket. -/
theorem Covers.spent {now : ℕ} {l : Limit} (hc : Covers bound h now bucket)
    (hl : bound.Admits l) (hone : 1 ≤ preview now bucket l)
    (hexpire : (pexpireMillis l.windowMillis).isSome = true) :
    ∃ h', bound.ideal.spend h now = some h' ∧ Covers bound h' now
      (some (persist now bucket l.windowMillis (preview now bucket l) true).1) := by
  have hseen : preview now bucket l ≤ bound.ideal.level h now :=
    (preview_le_preview hl).trans (hc.preview_le now le_rfl)
  have hspend : bound.ideal.spend h now = some ⟨bound.ideal.level h now - 1, now⟩ :=
    if_pos ⟨hc.since_le, hone.trans hseen⟩
  have h0 := TokenBucket.spend_nonneg hspend
  have hcap := TokenBucket.spend_le_capacity hspend
  refine ⟨_, hspend, covers_persist h0 le_rfl hl ?_ fun hnone => ?_⟩
  · refine TokenBucket.le_level ?_ ?_
    · exact (sub_le_sub_right hseen 1).trans hcap
    · simpa using hseen
  · rw [hnone] at hexpire
    cases hexpire

/-! ## Runs -/

/-- The calls using `k` that have returned 0 are spends of an ideal bucket that covers it. -/
def Covered (bound : RateBound) (k : BucketKey) (s : State) : Prop :=
  ∃ (start : ℚ) (h : TokenBucket.Held ℚ),
    run bound.ideal.spend (bound.ideal.full start) (grantTimes k s.granted) = some h ∧
      Covers bound h s.now (s.redis.buckets k)

theorem covered_start (bound : RateBound) (k : BucketKey) (redis : RateRedis) :
    Covered bound k (.start redis) :=
  ⟨_, _, rfl, covers_full bound _ _⟩

theorem grantTimes_append (k : BucketKey) (granted more : List Grant) :
    grantTimes k (granted ++ more) = grantTimes k granted ++ grantTimes k more := by
  simp [grantTimes]

theorem uses_of_limitOf {time : ℕ} {l : Limit} (h : limitOf keys args redis k = some l) :
    (Grant.mk keys time).uses k = true := by
  unfold limitOf at h
  unfold Grant.uses
  simp only at h
  split at h
  · rename_i hip
    simp [hip]
  · split at h
    · rename_i huser
      simp [huser]
    · cases h

theorem not_uses_of_limitOf {time : ℕ} (h : limitOf keys args redis k = none) :
    (Grant.mk keys time).uses k = false := by
  unfold limitOf at h
  unfold Grant.uses
  simp only at h
  split at h
  · cases h
  · split at h
    · cases h
    · simp_all

/-- The script reads the clock and the policies. -/
theorem tokenBucketLua_time (keys : RateKeys) (args : RateArgs) (redis : RateRedis) :
    (tokenBucketLua keys args redis).2.time = redis.time := by
  rcases tokenBucketLua_cases keys args redis with hcall | ⟨reply, hcall, -⟩ <;> rw [hcall] <;> rfl

/-- **A call keeps the ideal bucket above the script's.** -/
theorem covered_execute (hlog : Covered bound k s)
    (hwithin : UsesWithin bound k s (.execute keys args))
    (hstep : step s (.execute keys args) = some t) : Covered bound k t := by
  obtain ⟨start, h, hrun, hc⟩ := hlog
  cases hstep
  have hnow : nowMillis (tokenBucketLua keys args s.redis).2.time = s.now := by
    rw [tokenBucketLua_time]
    rfl
  rcases tokenBucketLua_bucket keys args s.redis k with
    ⟨hbucket, hunused⟩ | ⟨l, hl, hbucket, hexpire⟩
  · -- the bucket is as before, so if the call returns 0 it does not use it
    refine ⟨start, h, ?_, ?_⟩
    · rw [grantTimes_append]
      by_cases hallowed : (tokenBucketLua keys args s.redis).1 = some .allowed
      · have hnot := hunused (by rw [hallowed]; rfl)
        rw [if_pos hallowed]
        simpa [grantTimes, not_uses_of_limitOf hnot] using hrun
      · rw [if_neg hallowed]
        simpa [grantTimes] using hrun
    · unfold State.now
      rw [hnow, hbucket]
      exact hc
  · have hadmits : bound.Admits l := by
      have hall : (limitOf keys args s.redis k).all (fun l => decide (bound.Admits l)) = true :=
        hwithin
      rw [hl] at hall
      exact of_decide_eq_true hall
    by_cases hallowed : (tokenBucketLua keys args s.redis).1 = some .allowed
    · have hsome : (tokenBucketLua keys args s.redis).1.isSome = true := by rw [hallowed]; rfl
      have hconsumes := (tokenBucketLua_fst keys args s.redis).1 hallowed
      obtain ⟨h', hspend, hc'⟩ := hc.spent hadmits (one_le_of_consumes hl hconsumes)
        (hexpire hsome)
      refine ⟨start, h', ?_, ?_⟩
      · rw [grantTimes_append, if_pos hallowed, run_append]
        have htimes : grantTimes k [⟨keys, s.redis.time⟩] = [(s.now : ℚ)] := by
          simp [grantTimes, uses_of_limitOf hl, State.now]
        rw [htimes]
        exact ⟨h, hrun, run_single.mpr hspend⟩
      · unfold State.now
        rw [hnow, hbucket, persisted, hconsumes]
        exact hc'
    · refine ⟨start, h, ?_, ?_⟩
      · rw [grantTimes_append, if_neg hallowed]
        simpa [grantTimes] using hrun
      · unfold State.now
        rw [hnow, hbucket]
        exact hc.written hadmits _

theorem covered_step : Preserves step (UsesWithin bound k) (Covered bound k) := by
  intro s a t hwithin hlog hstep
  cases a with
  | tick later =>
    obtain ⟨start, h, hrun, hc⟩ := hlog
    simp only [step] at hstep
    split at hstep
    · rename_i hle
      cases hstep
      exact ⟨start, h, hrun, hc.later (Nat.cast_le.mpr (nowMillis_mono hle))⟩
    · cases hstep
  | setPolicy voucherId scene policy =>
    cases hstep
    exact hlog
  | execute keys args => exact covered_execute hlog hwithin hstep
  | expire k' =>
    obtain ⟨start, h, hrun, hc⟩ := hlog
    simp only [step] at hstep
    split at hstep
    · rename_i expireAt he
      split at hstep
      · rename_i hle
        cases hstep
        have hle : (expireAt : ℚ) ≤ s.now := by exact_mod_cast hle
        refine ⟨start, h, hrun, ?_⟩
        by_cases hk : k = k'
        · subst hk
          simpa [State.now, RateRedis.write] using hc.expire he hle
        · simpa [State.now, RateRedis.write, hk] using hc
      · cases hstep
    · cases hstep

/-- The calls within a window are, by the script's clock, within the window rounded down. -/
theorem grantedWithin_le (s : State) (k : BucketKey) (t1 t2 : ℚ) :
    s.grantedWithin k t1 t2 ≤ (grantTimes k s.granted).countP fun t =>
      decide ((⌊t1⌋ : ℚ) ≤ t ∧ t ≤ (⌊t2⌋ : ℚ)) := by
  unfold State.grantedWithin grantTimes
  rw [List.countP_map, List.countP_filter]
  refine List.countP_mono_left fun g _ hg => ?_
  have hfloor : ⌊g.millis⌋ = (nowMillis g.time : ℤ) := by
    rw [nowMillis_eq]
    exact Rat.floor_natCast_div_natCast g.time 1000
  simp only [Bool.and_eq_true, decide_eq_true_eq] at hg
  obtain ⟨huses, h1, h2⟩ := hg
  have h1 := Int.floor_le_floor h1
  have h2 := Int.floor_le_floor h2
  rw [hfloor] at h1 h2
  have h1 : (⌊t1⌋ : ℚ) ≤ nowMillis g.time := by exact_mod_cast h1
  have h2 : (nowMillis g.time : ℚ) ≤ ⌊t2⌋ := by exact_mod_cast h2
  simpa [huses] using ⟨h1, h2⟩

/-! ## The laws -/

/-- The bound for every window, in milliseconds of `TIME`, and what a rejected call does. -/
structure RateLaws (bound : RateBound) (k : BucketKey) (s : State) : Prop where
  window : ∀ t1 t2 : ℚ, t1 ≤ t2 → (s.grantedWithin k t1 t2 : ℚ) ≤
    bound.capacity + bound.capacity * (⌊t2⌋ - ⌊t1⌋) / bound.windowMillis
  rejected : ∀ keys args, Rejected (tokenBucketLua keys args s.redis).1 →
    TakesNothing keys args s.redis (tokenBucketLua keys args s.redis).2

theorem takesNothing_of_rejected (h : Rejected (tokenBucketLua keys args redis).1) :
    TakesNothing keys args redis (tokenBucketLua keys args redis).2 := by
  intro k l hl
  have hkept := (tokenBucketLua_fst keys args redis).2 h
  have hsome : (tokenBucketLua keys args redis).1.isSome = true := by
    rcases h with h | h <;> rw [h] <;> rfl
  rcases tokenBucketLua_bucket keys args redis k with ⟨-, hunused⟩ | ⟨l', hl', hbucket, -⟩
  · rw [hunused hsome] at hl
    cases hl
  · obtain rfl : l' = l := Option.some.inj (hl'.symm.trans hl)
    refine ⟨_, hbucket, persist_lastMillis _ _ _ _ _, ?_⟩
    rw [persisted, hkept, persist_tokens]
    rfl

/-- **The token bucket's rate bound.** Whatever Redis holds at the start and whatever calls, policy
changes and expiries follow: if the calls using a bucket stay within the bound, so does what they
are granted in any window; and a rejected call takes no token. -/
theorem rate_bound {redis : RateRedis} {actions : List Action}
    (hwithin : Along step (UsesWithin bound k) (.start redis) actions)
    (hrun : run step (.start redis) actions = some t) : RateLaws bound k t where
  window t1 t2 h12 := by
    obtain ⟨start, h, hspends, -⟩ := run_invariant covered_step hwithin
      (covered_start bound k redis) hrun
    have hfloor : (⌊t1⌋ : ℚ) ≤ ⌊t2⌋ := Int.cast_le.mpr (Int.floor_le_floor h12)
    calc (t.grantedWithin k t1 t2 : ℚ)
        ≤ ((grantTimes k t.granted).countP fun t =>
            decide ((⌊t1⌋ : ℚ) ≤ t ∧ t ≤ (⌊t2⌋ : ℚ)) : ℕ) :=
          Nat.cast_le.mpr (grantedWithin_le t k t1 t2)
      _ ≤ bound.capacity + (⌊t2⌋ - ⌊t1⌋) * (bound.capacity / bound.windowMillis) :=
          TokenBucket.window_bound hspends hfloor
      _ = bound.capacity + bound.capacity * (⌊t2⌋ - ⌊t1⌋) / bound.windowMillis := by ring
  rejected _ _ h := takesNothing_of_rejected h

/-- The arguments of a call with windows of a second and both multipliers 1. -/
def secondArgs (ipCapacity userCapacity : ℚ) : RateArgs :=
  ⟨1000, ipCapacity, 1000, userCapacity, some 1, some 1⟩

/-- No policy hash and no bucket. -/
def noBuckets (time : ℕ) : RateRedis := ⟨time, fun _ _ => .absent, fun _ => none⟩

/-- Two tokens for a user, the third call rejected, and one more token half a second later. -/
def threeGranted : List Action :=
  let call := .execute ⟨1, .seckillOrder, [], 7⟩ (secondArgs 200 2)
  [call, call, call, .tick 500000, call]

theorem rate_bound_after_rejection :
    ∃ t, run step (.start (noBuckets 0)) threeGranted = some t ∧
      t.grantedWithin (.user 1 .seckillOrder 7) 0 500 = 3 ∧
      (tokenBucketLua ⟨1, .seckillOrder, [], 7⟩ (secondArgs 200 2) t.redis).1 =
        some .userExceeded ∧
      RateLaws ⟨2, 1000, by decide +kernel, by decide +kernel⟩ (.user 1 .seckillOrder 7) t := by
  obtain ⟨t, hrun, hends⟩ := Option.map_eq_some_iff.mp
    (show (run step (.start (noBuckets 0)) threeGranted).map
        (fun t => (t.grantedWithin (.user 1 .seckillOrder 7) 0 500,
          (tokenBucketLua ⟨1, .seckillOrder, [], 7⟩ (secondArgs 200 2) t.redis).1)) =
      some (3, some .userExceeded) by decide +kernel)
  obtain ⟨hcount, hrejected⟩ := Prod.mk.inj hends
  exact ⟨t, hrun, hcount, hrejected, rate_bound (by decide +kernel) hrun⟩

/-- **A window that is no whole number of milliseconds admits more.** With a capacity of 1 and a
window of a second, a call at 999 µs and one at 1 s both return 0: the script sees a second between
them. -/
theorem rate_bound_exceeded_within_a_millisecond :
    ∃ t, run step (.start (noBuckets 999))
        [.execute ⟨1, .seckillOrder, [], 7⟩ (secondArgs 200 1), .tick 1000000,
          .execute ⟨1, .seckillOrder, [], 7⟩ (secondArgs 200 1)] = some t ∧
      Along step (UsesWithin ⟨1, 1000, by decide +kernel, by decide +kernel⟩
          (.user 1 .seckillOrder 7)) (.start (noBuckets 999))
        [.execute ⟨1, .seckillOrder, [], 7⟩ (secondArgs 200 1), .tick 1000000,
          .execute ⟨1, .seckillOrder, [], 7⟩ (secondArgs 200 1)] ∧
      (1 : ℚ) + 1 * (1000 - 999 / 1000) / 1000 <
        t.grantedWithin (.user 1 .seckillOrder 7) (999 / 1000) 1000 := by
  obtain ⟨t, hrun, hcount⟩ := Option.map_eq_some_iff.mp
    (show (run step (.start (noBuckets 999))
        [.execute ⟨1, .seckillOrder, [], 7⟩ (secondArgs 200 1), .tick 1000000,
          .execute ⟨1, .seckillOrder, [], 7⟩ (secondArgs 200 1)]).map
        (fun t => t.grantedWithin (.user 1 .seckillOrder 7) (999 / 1000) 1000) = some 2
      by decide +kernel)
  refine ⟨t, hrun, by decide +kernel, ?_⟩
  rw [hcount]
  norm_num

end Hmdp.RateLimit
