import Hmdp.Model.Types
import Mathlib.Algebra.Order.Floor.Ring
import Mathlib.Data.Rat.Floor
import Mathlib.Tactic.NormNum

/-!
# `seckill_token_bucket.lua` and the rate limit service

Numbers of the script are exact rationals; a value of a hash is what `tonumber` makes of it, `none`
where it is absent or no number. The script is one atomic step that sees one Redis `TIME`. Lua's
numbers are doubles: integers below 2^53, as the times, windows and capacities of a Redis in use
are, are the same there, while a token count that is no binary fraction is rounded.

* `check` builds the keys and arguments of a call, `verdict` turns its reply into the service's
  outcome.
* `tokenBucketLua` is the script.
-/

namespace Hmdp.Model

/-! ## `SeckillRateLimitServiceImpl` -/

/-- The two limited endpoints. -/
inductive SeckillRateLimitScene where
  | issueSeckillAccessToken
  | seckillOrder
  deriving DecidableEq

/-- The windows and the capacities of an endpoint. -/
structure EndpointLimit where
  ipWindowMillis : Int32
  ipCapacity : Int32
  userWindowMillis : Int32
  userCapacity : Int32

/-- `hmdp.seckill.rate-limit` -/
structure SeckillRateLimitProperties where
  enabled : Bool
  ipWhitelist : List Text
  userWhitelist : List UserId
  vipMinLevel : Int32
  highValueMinCredits : Int32
  vipCapacityMultiplier : ℚ
  highValueCapacityMultiplier : ℚ
  issueSeckillAccessToken : EndpointLimit
  seckillOrder : EndpointLimit

/-- What the guard reads of the user. -/
structure UserDTO where
  id : Option UserId
  credits : Option Int32
  level : Option Int32

/-- `SeckillOrderPressureService`, of the multiplier it has stored. -/
def getAdmissionMultiplier (admissionMultiplier : ℚ) : ℚ :=
  max (1 / 100) (min 1 admissionMultiplier)

/-- How much more a VIP or high-value user may ask. -/
def resolveCapacityMultiplier (properties : SeckillRateLimitProperties) (user : UserDTO) : ℚ :=
  let vip := user.level.any fun level => properties.vipMinLevel ≤ level
  let highValue := user.credits.any fun credits => properties.highValueMinCredits ≤ credits
  let multiplier := if vip then max 1 properties.vipCapacityMultiplier else 1
  let multiplier :=
    if highValue then max multiplier properties.highValueCapacityMultiplier else multiplier
  max 1 multiplier

/-- The configured limit of an endpoint. -/
def resolveLimit (properties : SeckillRateLimitProperties) : SeckillRateLimitScene → EndpointLimit
  | .issueSeckillAccessToken => properties.issueSeckillAccessToken
  | .seckillOrder => properties.seckillOrder

/-- `seckill:rate:ip:{<v>}:<scene>:<ip>` and `seckill:rate:user:{<v>}:<scene>:<u>`. -/
inductive BucketKey where
  | ip (voucherId : VoucherId) (scene : SeckillRateLimitScene) (clientIp : Text)
  | user (voucherId : VoucherId) (scene : SeckillRateLimitScene) (userId : UserId)
  deriving DecidableEq

/-- What the `KEYS` of a call are made of. -/
structure RateKeys where
  voucherId : VoucherId
  scene : SeckillRateLimitScene
  clientIp : Text
  userId : UserId
  deriving DecidableEq

/-- The bucket of the address. -/
def RateKeys.ipBucketKey (keys : RateKeys) : BucketKey :=
  .ip keys.voucherId keys.scene keys.clientIp

/-- The bucket of the user. -/
def RateKeys.userBucketKey (keys : RateKeys) : BucketKey :=
  .user keys.voucherId keys.scene keys.userId

/-- The `ARGV` of a call as the script reads them. -/
structure RateArgs where
  defaultIpWindowMillis : ℚ
  defaultIpCapacity : ℚ
  defaultUserWindowMillis : ℚ
  defaultUserCapacity : ℚ
  userCapacityMultiplier : Option ℚ
  admissionMultiplier : Option ℚ

/-- How a call of the service ends before the script. -/
inductive CheckOutcome where
  | passed
  | illegalArgument
  | execute (keys : RateKeys) (args : RateArgs)

/-- `check` up to the script; `clientIp` is already normalised and `pressure` is the stored
multiplier. -/
def check (properties : SeckillRateLimitProperties) (pressure : ℚ) (voucherId : Option VoucherId)
    (user : Option UserDTO) (clientIp : Text) (scene : Option SeckillRateLimitScene) :
    CheckOutcome :=
  if !properties.enabled then .passed
  else
    match voucherId, user, user.bind UserDTO.id, scene with
    | some voucherId, some user, some userId, some scene =>
      if clientIp ∈ properties.ipWhitelist ∨ userId ∈ properties.userWhitelist then .passed
      else
        let limit := resolveLimit properties scene
        .execute ⟨voucherId, scene, clientIp, userId⟩
          { defaultIpWindowMillis := limit.ipWindowMillis.toInt
            defaultIpCapacity := limit.ipCapacity.toInt
            defaultUserWindowMillis := limit.userWindowMillis.toInt
            defaultUserCapacity := limit.userCapacity.toInt
            userCapacityMultiplier := some (resolveCapacityMultiplier properties user)
            admissionMultiplier :=
              some (if scene = .seckillOrder then getAdmissionMultiplier pressure else 1) }
    | _, _, _, _ => .illegalArgument

theorem one_le_resolveCapacityMultiplier (properties : SeckillRateLimitProperties)
    (user : UserDTO) : 1 ≤ resolveCapacityMultiplier properties user := le_max_left _ _

theorem getAdmissionMultiplier_mem (pressure : ℚ) :
    1 / 100 ≤ getAdmissionMultiplier pressure ∧ getAdmissionMultiplier pressure ≤ 1 :=
  ⟨le_max_left _ _, max_le (by norm_num) (min_le_left _ _)⟩

/-- The multipliers the service sends are within the bounds the script puts them in. -/
theorem check_multipliers {properties : SeckillRateLimitProperties} {pressure : ℚ}
    {voucherId : Option VoucherId} {user : Option UserDTO} {clientIp : Text}
    {scene : Option SeckillRateLimitScene} {keys : RateKeys} {args : RateArgs}
    (h : check properties pressure voucherId user clientIp scene = .execute keys args) :
    ∃ userMultiplier admission, args.userCapacityMultiplier = some userMultiplier ∧
      args.admissionMultiplier = some admission ∧ 1 ≤ userMultiplier ∧ 1 / 100 ≤ admission ∧
        admission ≤ 1 := by
  unfold check at h
  split at h
  · cases h
  · split at h
    · rename_i dto _ scene _
      split at h
      · cases h
      · cases h
        refine ⟨_, _, rfl, rfl, one_le_resolveCapacityMultiplier properties dto, ?_⟩
        split
        · exact getAdmissionMultiplier_mem pressure
        · norm_num
    · cases h

/-! ## The script -/

/-- `CODE_ALLOWED` (0), `CODE_IP_EXCEEDED` (10007) and `CODE_USER_EXCEEDED` (10008). -/
inductive RateCode where
  | allowed
  | ipExceeded
  | userExceeded
  deriving DecidableEq

/-- The fields of `seckill:rate:policy:{<v>}:<scene>`. -/
structure RatePolicy where
  ipWindowMillis : Option ℚ
  ipCapacity : Option ℚ
  userWindowMillis : Option ℚ
  userCapacity : Option ℚ

/-- A policy hash that does not exist. -/
def RatePolicy.absent : RatePolicy := ⟨none, none, none, none⟩

/-- A bucket hash, with the time its key expires at. -/
structure Bucket where
  tokens : Option ℚ
  lastMillis : Option ℚ
  expireAt : Option ℤ
  deriving DecidableEq

/-- What the script reads and writes. -/
structure RateRedis where
  /-- `TIME`, in microseconds -/
  time : ℕ
  policy : VoucherId → SeckillRateLimitScene → RatePolicy
  buckets : BucketKey → Option Bucket

/-- `redisTime[1] * 1000 + math.floor(redisTime[2] / 1000)`. -/
def nowMillis (time : ℕ) : ℕ := time / 1000000 * 1000 + time % 1000000 / 1000

/-- The field where it is positive, else the default. -/
def positivePolicy (value : Option ℚ) (fallback : ℚ) : ℚ :=
  match value with
  | some value => if 0 < value then value else fallback
  | none => fallback

/-- A window and a capacity as the script uses them for one bucket. -/
structure Limit where
  windowMillis : ℚ
  capacity : ℚ

/-- The limit of the address, as the script computes it. -/
def ipLimit (policy : RatePolicy) (args : RateArgs) : Limit where
  windowMillis := positivePolicy policy.ipWindowMillis args.defaultIpWindowMillis
  capacity :=
    let ipCapacity := positivePolicy policy.ipCapacity args.defaultIpCapacity
    max 1 ⌊ipCapacity * max (1 / 100) (args.admissionMultiplier.getD 1)⌋

/-- The limit of the user, as the script computes it. -/
def userLimit (policy : RatePolicy) (args : RateArgs) : Limit where
  windowMillis := positivePolicy policy.userWindowMillis args.defaultUserWindowMillis
  capacity :=
    let userCapacity := positivePolicy policy.userCapacity args.defaultUserCapacity
    let userCapacity : ℚ :=
      max 1 ⌊userCapacity * max (1 / 100) (args.admissionMultiplier.getD 1)⌋
    max 1 ⌊userCapacity * max 1 (args.userCapacityMultiplier.getD 1)⌋

/-- The tokens `preview` computes; it allows the call when there is one. -/
def preview (now : ℚ) (bucket : Option Bucket) (limit : Limit) : ℚ :=
  match bucket.bind Bucket.lastMillis, bucket.bind Bucket.tokens with
  | some lastMillis, some tokens =>
    let elapsed := max 0 (now - lastMillis)
    -- Lua divides by 0 to infinity or NaN, and `math.min` answers the capacity for both
    if limit.windowMillis = 0 then limit.capacity
    else min limit.capacity (tokens + elapsed * limit.capacity / limit.windowMillis)
  | _, _ => limit.capacity

/-- The argument of `PEXPIRE` as Redis parses it: Lua writes 17 significant digits, from `1e17` on
with an exponent. -/
def pexpireMillis (windowMillis : ℚ) : Option ℤ :=
  let millis := max 1000 (windowMillis * 2)
  if millis.den = 1 ∧ millis < 100000000000000000 then some millis.num else none

/-- `persist`, and whether its `PEXPIRE` succeeded; the script ends with an error if not, with the
`HSET` done. -/
def persist (now : ℕ) (bucket : Option Bucket) (windowMillis tokens : ℚ) (consume : Bool) :
    Bucket × Bool :=
  let written : Bucket :=
    { tokens := some (if consume then tokens - 1 else tokens)
      lastMillis := some now
      expireAt := bucket.bind Bucket.expireAt }
  match pexpireMillis windowMillis with
  | some millis => ({ written with expireAt := some (now + millis) }, true)
  | none => (written, false)

/-- A bucket is written or gone. -/
def RateRedis.write (s : RateRedis) (k : BucketKey) (bucket : Option Bucket) : RateRedis :=
  { s with buckets := Function.update s.buckets k bucket }

/-- `seckill_token_bucket.lua`; no reply where it ends with an error. -/
def tokenBucketLua (keys : RateKeys) (args : RateArgs) (s : RateRedis) :
    Option RateCode × RateRedis :=
  let policy := s.policy keys.voucherId keys.scene
  let ip := ipLimit policy args
  let user := userLimit policy args
  let now := nowMillis s.time
  let ipBucket := s.buckets keys.ipBucketKey
  let userBucket := s.buckets keys.userBucketKey
  let ipTokens := preview now ipBucket ip
  let userTokens := preview now userBucket user
  let allowed := decide (1 ≤ ipTokens) && decide (1 ≤ userTokens)
  let ipWritten := persist now ipBucket ip.windowMillis ipTokens allowed
  let s := s.write keys.ipBucketKey (some ipWritten.1)
  if !ipWritten.2 then (none, s)
  else
    let userWritten := persist now userBucket user.windowMillis userTokens allowed
    let s := s.write keys.userBucketKey (some userWritten.1)
    if !userWritten.2 then (none, s)
    else if !decide (1 ≤ ipTokens) then (some .ipExceeded, s)
    else if !decide (1 ≤ userTokens) then (some .userExceeded, s)
    else (some .allowed, s)

/-- What `check` makes of the reply: it returns, or throws with a message. -/
def verdict : Option RateCode → Except String Unit
  | some .allowed => .ok ()
  | some .ipExceeded => .error "当前网络请求过于频繁，请稍后重试"
  | some .userExceeded => .error "操作过于频繁，请稍后重试"
  | none => .error "限流服务暂时不可用，请稍后重试"

/-- `check` returns from the script exactly on `CODE_ALLOWED`. -/
theorem verdict_eq_ok_iff (reply : Option RateCode) :
    verdict reply = .ok () ↔ reply = some .allowed := by
  rcases reply with _ | _ | _ | _ <;> simp [verdict]

end Hmdp.Model
