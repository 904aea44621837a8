import Hmdp.Lib.Expiring
import Hmdp.Model.Types

/-!
# Logins and their tokens

`UserServiceImpl.createLoginToken`, `logout` and `updateProfile`, and `RefreshTokenInterceptor`, one
Redis command after the other. A user has an index key `redis:login:<u>` with the token, and the
token a hash `login:token:<t>` with the user; both are given `LOGIN_USER_TTL` at the login, and only
the hash is given it again by later requests.

* Times are seconds.
* A hash is the `UserDTO` of its fields: `putAll` leaves out the fields that are `null`, so these
  keep what the hash had.
* Of `updateProfile` the writes to MySQL are left out, except for whether the user exists.
  `StrUtil.isBlank` and `String.trim` are parameters.
-/

namespace Hmdp.Model

open Hmdp.Lib

/-- `tb_user`, as far as a login copies it. -/
structure User where
  id : UserId
  nickName : Option Text
  icon : Option Text
  deriving DecidableEq

/-- `tb_user_info`, as far as a login copies it. -/
structure UserInfo where
  credits : Option Int32
  level : Option Int32
  deriving DecidableEq

/-- The `UserDTO` of a login hash, which always has the id. -/
structure LoginUser where
  id : UserId
  nickName : Option Text
  icon : Option Text
  credits : Int32
  level : Int32
  deriving DecidableEq

/-- The user `createLoginToken` puts into the hash. -/
def User.toDTO (user : User) (userInfo : Option UserInfo) : LoginUser where
  id := user.id
  nickName := user.nickName
  icon := user.icon
  credits := (userInfo.bind UserInfo.credits).getD 0
  level := (userInfo.bind UserInfo.level).getD 0

/-- The fields of a hash after a `putAll` of a user. -/
def LoginUser.putAll (user : LoginUser) : Option LoginUser → LoginUser
  | none => user
  | some old =>
    { user with nickName := user.nickName.or old.nickName, icon := user.icon.or old.icon }

/-- `LOGIN_USER_TTL`, 36000 minutes. -/
def loginUserTtl : ℤ := 36000 * 60

/-- The keys of the login, with their expiries. -/
structure LoginRedis where
  /-- `redis:login:<u>` -/
  index : UserId → Option (Expiring Text)
  /-- `login:token:<t>` -/
  hash : Text → Option (Expiring LoginUser)
  now : Time

namespace LoginRedis

/-- Nobody is logged in. -/
def empty (now : Time) : LoginRedis := ⟨fun _ => none, fun _ => none, now⟩

/-- `getAndDelete` of the index key. -/
def getAndDelete (u : UserId) (s : LoginRedis) : Option Text × LoginRedis :=
  ((s.index u).map Expiring.value, { s with index := Function.update s.index u none })

/-- `set(userTokenKey, newToken, LOGIN_USER_TTL)`. -/
def setIndex (u : UserId) (token : Text) (s : LoginRedis) : LoginRedis :=
  { s with index := Function.update s.index u (some ⟨token, some (s.now + loginUserTtl)⟩) }

/-- `delete` of a token. -/
def delete (token : Text) (s : LoginRedis) : LoginRedis :=
  { s with hash := Function.update s.hash token none }

/-- `putAll` of a user; the expiry time of an existing hash stays. -/
def putAll (token : Text) (user : LoginUser) (s : LoginRedis) : LoginRedis :=
  { s with
    hash := Function.update s.hash token
      (some ⟨user.putAll ((s.hash token).map Expiring.value),
        (s.hash token).bind Expiring.deadline⟩) }

/-- `expire(tokenKey, LOGIN_USER_TTL)`. -/
def expire (token : Text) (s : LoginRedis) : LoginRedis :=
  { s with
    hash := Function.update s.hash token
      (Expiring.expire (s.now + loginUserTtl) (s.hash token)) }

/-- The clock shows `now`. -/
def elapse (now : Time) (s : LoginRedis) : LoginRedis where
  index u := Expiring.left now (s.index u)
  hash token := Expiring.left now (s.hash token)
  now := now

end LoginRedis

/-! ## `updateProfile` -/

/-- The body of a profile update. -/
structure UserProfileUpdateDTO where
  nickName : Option Text
  icon : Option Text
  city : Option Text
  introduce : Option Text
  birthday : Option Time
  deriving DecidableEq

/-- The checks of `updateProfile`: the text of the failure, or the trimmed nickname. -/
def checkProfile (isBlank : Text → Bool) (trim : Text → Text) (today : Time) :
    Option UserProfileUpdateDTO → Except Text Text
  | none => .error "昵称不能为空".toList
  | some profile =>
    let nickName := trim (profile.nickName.getD [])
    if isBlank (profile.nickName.getD []) then .error "昵称不能为空".toList
    else if 32 < javaLength nickName then .error "昵称不能超过32个字符".toList
    else if (profile.icon.any fun icon => decide (255 < javaLength icon)) then
      .error "头像地址过长".toList
    else if (profile.city.any fun city => decide (64 < javaLength city)) then
      .error "城市名称不能超过64个字符".toList
    else if (profile.introduce.any fun introduce => decide (128 < javaLength introduce)) then
      .error "个人介绍不能超过128个字符".toList
    else if (profile.birthday.any fun birthday => decide (today < birthday)) then
      .error "生日不能晚于今天".toList
    else .ok nickName

/-- `updateProfile` up to its write to the hash: the failure, or the user it is about to write. -/
def updatedUser (isBlank : Text → Bool) (trim : Text → Text) (today : Time) (userExists : Bool)
    (profile : Option UserProfileUpdateDTO) (currentUser : LoginUser) : Except Text LoginUser := do
  let nickName ← checkProfile isBlank trim today profile
  if userExists then
    .ok { currentUser with nickName := some nickName, icon := profile.bind (·.icon) }
  else .error "用户不存在".toList

/-- `updateProfile` does not change who the user is. -/
theorem updatedUser_id {isBlank : Text → Bool} {trim : Text → Text} {today : Time}
    {userExists : Bool} {profile : Option UserProfileUpdateDTO} {currentUser user : LoginUser}
    (h : updatedUser isBlank trim today userExists profile currentUser = .ok user) :
    user.id = currentUser.id := by
  unfold updatedUser at h
  cases hcheck : checkProfile isBlank trim today profile with
  | error message =>
    rw [hcheck] at h
    cases h
  | ok nickName =>
    rw [hcheck] at h
    cases userExists with
    | false => cases h
    | true =>
      cases h
      rfl

@[simp] theorem LoginUser.putAll_id (user : LoginUser) (old : Option LoginUser) :
    (user.putAll old).id = user.id := by
  cases old <;> rfl

end Hmdp.Model
