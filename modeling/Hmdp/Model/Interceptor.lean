import Hmdp.Model.Account

/-!
# The interceptors of a request

`MvcConfig.addInterceptors`, `RefreshTokenInterceptor`, `LoginInterceptor` and `UserHolder`. Every
request runs on a worker thread of the server, which is used again for later requests, and whose
`ThreadLocal` is the user of `UserHolder`. A path is the list of its names.

Of Spring's handler chain: the interceptors run in the order of `order`; a handler runs only if
every `preHandle` has returned true; `afterCompletion` is called, at the end or after the first
`preHandle` that returns false or throws, of exactly the interceptors whose `preHandle` has
returned true.
-/

namespace Hmdp.Model

/-- An Ant pattern without wildcards, or one that ends in `/**`. -/
inductive PathPattern where
  | exact (names : List Text)
  | below (names : List Text)

/-- `PathMatcher.match`, of the two kinds of patterns that are used. -/
def PathPattern.matches (path : List Text) : PathPattern → Bool
  | .exact names => names = path
  | .below names => names.isPrefixOf path

/-- `excludePathPatterns` of the login interceptor. -/
def excludePathPatterns : List PathPattern :=
  [.exact [], .below ["shop".toList], .below ["voucher".toList, "list".toList],
    .below ["voucher".toList, "top-buyers".toList], .below ["shop-type".toList],
    .below ["upload".toList], .exact ["blog".toList, "hot".toList],
    .exact ["user".toList, "code".toList], .exact ["user".toList, "login".toList]]

/-- The login interceptor does not run. -/
def isExcluded (path : List Text) : Bool :=
  excludePathPatterns.any (PathPattern.matches path)

/-- A code needs no user, a logout does. -/
example : isExcluded ["user".toList, "code".toList] = true ∧
    isExcluded ["user".toList, "logout".toList] = false := by
  decide

/-- What the interceptors read of a request. -/
structure Request where
  path : List Text
  /-- the header `authorization` -/
  token : Option Text
  deriving DecidableEq

/-- `RefreshTokenInterceptor.preHandle` up to `saveUser`: the token whose hash it has found and the
user in it. -/
def foundUser (isBlank : Text → Bool) (redis : LoginRedis) (request : Request) :
    Option (Text × LoginUser) :=
  match request.token with
  | none => none
  | some token =>
    if isBlank token then none else (redis.hash token).map fun e => (token, e.value)

/-- Whether the handler runs: the login interceptor does not apply, or finds a user. -/
def admitted (request : Request) (user : Option LoginUser) : Bool :=
  isExcluded request.path || user.isSome

/-- `/user/code` -/
def codePath : List Text := ["user".toList, "code".toList]

/-- `/user/login` -/
def loginPath : List Text := ["user".toList, "login".toList]

/-- `/user/logout` -/
def logoutPath : List Text := ["user".toList, "logout".toList]

/-- `/user/profile` -/
def profilePath : List Text := ["user".toList, "profile".toList]

/-- `/user/password` -/
def passwordPath : List Text := ["user".toList, "password".toList]

theorem foundUser_eq_some {isBlank : Text → Bool} {redis : LoginRedis} {request : Request}
    {token : Text} {user : LoginUser} :
    foundUser isBlank redis request = some (token, user) ↔
      request.token = some token ∧ isBlank token = false ∧
        ∃ e, redis.hash token = some e ∧ e.value = user := by
  unfold foundUser
  cases htoken : request.token with
  | none => simp
  | some found =>
    simp only [Option.some.injEq]
    cases hblank : isBlank found with
    | true =>
      rw [if_pos rfl]
      constructor
      · intro h
        cases h
      · rintro ⟨rfl, hnot, -⟩
        rw [hblank] at hnot
        cases hnot
    | false =>
      rw [if_neg Bool.false_ne_true, Option.map_eq_some_iff]
      constructor
      · rintro ⟨e, he, h⟩
        cases h
        exact ⟨rfl, hblank, e, he, rfl⟩
      · rintro ⟨rfl, -, e, he, rfl⟩
        exact ⟨e, he, rfl⟩

end Hmdp.Model
