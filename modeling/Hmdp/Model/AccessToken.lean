import Hmdp.Model.Redis

/-!
# Access tokens

`SeckillAccessTokenServiceImpl` with its two scripts, access tokens enabled. The keys of the tokens
are part of `Redis`; their expiry times and the clock of the server stand beside it. Ids are not
`null` (`validateIdentity`).

* Times are milliseconds. A key whose time is up is gone for every command.
* `PSETEX` refuses a time to live that is not positive, and the script fails with it; so it does
  from `1e17` on, where Lua writes an exponent. Times to live of 2^53 and more, which a Lua number
  rounds, are kept as they are.
* `StrUtil.isBlank` is a parameter.
-/

namespace Hmdp.Model

/-- Redis with the expiries of the access tokens and the clock. -/
structure TokenRedis where
  redis : Redis
  /-- when the access token of a key that exists expires -/
  expireAt : VoucherId → UserId → Time
  now : Time

/-- `seckill_access_token_issue.lua`; `none` if `PSETEX` fails. -/
def accessTokenIssueLua (v : VoucherId) (u : UserId) (candidate : Text) (ttlMillis : Long)
    (s : TokenRedis) : Option Text × TokenRedis :=
  match s.redis.accessToken v u with
  | some existing => (some existing, s)
  | none =>
    if ttlMillis ≤ 0 ∨ 100000000000000000 ≤ ttlMillis then (none, s)
    else
      (some candidate, { s with
        redis := { s.redis with
          accessToken := Function.update s.redis.accessToken v
            (Function.update (s.redis.accessToken v) u (some candidate)) }
        expireAt := Function.update s.expireAt v
          (Function.update (s.expireAt v) u (s.now + ttlMillis.toInt)) })

/-- `seckill_access_token_consume.lua`. -/
def accessTokenConsumeLua (v : VoucherId) (u : UserId) (expected : Text) (s : Redis) : ℤ × Redis :=
  if s.accessToken v u = some expected then
    (1, { s with
      accessToken := Function.update s.accessToken v
        (Function.update (s.accessToken v) u none) })
  else (0, s)

/-- `issueAccessToken`; `none` if it throws. -/
def issueAccessToken (isBlank : Text → Bool) (ttlSeconds : Long) (v : VoucherId) (u : UserId)
    (candidate : Text) (s : TokenRedis) : Option Text × TokenRedis :=
  let r := accessTokenIssueLua v u candidate (max 1 ttlSeconds * 1000) s
  (r.1.filter fun token => !isBlank token, r.2)

/-- `validateAndConsume`. -/
def validateAndConsume (isBlank : Text → Bool) (v : VoucherId) (u : UserId) (token : Text)
    (s : Redis) : Bool × Redis :=
  if isBlank token then (false, s)
  else
    let r := accessTokenConsumeLua v u token s
    (decide (r.1 = 1), r.2)

/-- The clock shows `now`: the keys whose time is up are gone. -/
def TokenRedis.elapse (now : Time) (s : TokenRedis) : TokenRedis :=
  { s with
    now := now
    redis := { s.redis with
      accessToken := fun v u =>
        (s.redis.accessToken v u).filter fun _ => decide (now < s.expireAt v u) } }

/-- **What the issue script can do**: nothing, or put the candidate under a free key. -/
theorem accessTokenIssueLua_cases (v : VoucherId) (u : UserId) (candidate : Text)
    (ttlMillis : Long) (s : TokenRedis) :
    (∃ reply, accessTokenIssueLua v u candidate ttlMillis s = (reply, s) ∧
        (s.redis.accessToken v u = none → ttlMillis ≤ 0 ∨ 100000000000000000 ≤ ttlMillis)) ∨
      (s.redis.accessToken v u = none ∧ 0 < ttlMillis ∧
        accessTokenIssueLua v u candidate ttlMillis s = (some candidate, { s with
          redis := { s.redis with
            accessToken := Function.update s.redis.accessToken v
              (Function.update (s.redis.accessToken v) u (some candidate)) }
          expireAt := Function.update s.expireAt v
            (Function.update (s.expireAt v) u (s.now + ttlMillis.toInt)) })) := by
  unfold accessTokenIssueLua
  cases h : s.redis.accessToken v u with
  | some existing => exact Or.inl ⟨some existing, rfl, fun h => by cases h⟩
  | none =>
    by_cases httl : ttlMillis ≤ 0 ∨ 100000000000000000 ≤ ttlMillis
    · exact Or.inl ⟨none, by simp [httl], fun _ => httl⟩
    · exact Or.inr ⟨rfl, Int64.not_le.mp fun h => httl (Or.inl h), by simp [httl]⟩

/-- What the consume script can do, behind the test for a blank token. -/
theorem validateAndConsume_cases (isBlank : Text → Bool) (v : VoucherId) (u : UserId)
    (token : Text) (s : Redis) :
    validateAndConsume isBlank v u token s = (false, s) ∨
      (s.accessToken v u = some token ∧ validateAndConsume isBlank v u token s =
        (true, { s with
          accessToken := Function.update s.accessToken v
            (Function.update (s.accessToken v) u none) })) := by
  unfold validateAndConsume
  by_cases hblank : isBlank token
  · exact Or.inl (by simp [hblank])
  · by_cases h : s.accessToken v u = some token
    · exact Or.inr ⟨h, by simp [hblank, accessTokenConsumeLua, h]⟩
    · exact Or.inl (by simp [hblank, accessTokenConsumeLua, h])

/-- A reservation with access tokens enabled presented the stored token. -/
theorem seckillLua_accessToken {c : SeckillCall} {s : Redis}
    (henabled : c.accessTokenEnabled = true) (h : (seckillLua c s).1 = 0) :
    s.accessToken c.voucherId c.userId = some c.accessToken := by
  obtain ⟨-, -, -, -, htoken⟩ := seckillLua_eq_zero.mp h
  exact htoken henabled

end Hmdp.Model
