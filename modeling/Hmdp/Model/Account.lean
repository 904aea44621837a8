import Hmdp.Lib.Table
import Hmdp.Model.Login

/-!
# Accounts, codes and passwords

`UserServiceImpl.sendCode`, `login`, `loginWithPassword`, `createUserWithPhone` and
`updatePassword`, up to the statements they send, `RegexUtils.isPhoneInvalid` and the table
`tb_user` with its unique index on the phone. BCrypt and `StrUtil.isBlank` are parameters:
`checkpw` is `none` where BCrypt throws on the stored text.

* `User.icon` has the default `""`, so the `updateById` of `updatePassword`, which sets no icon,
  writes an empty one beside the password.
* A code is not deleted by the login that presents it.
-/

namespace Hmdp.Model

open Hmdp.Lib

/-! ## Phones -/

/-- The two characters after the first `1` in `PHONE_REGEX`; the comma of `[0-3,5-9]` is one of
the characters it allows. -/
def phoneBlock (c d : Char) : Bool :=
  match c with
  | '3' | '8' => d.isDigit
  | '4' => d ∈ ['5', '7', '9']
  | '5' => d ∈ ['0', '1', '2', '3', ',', '5', '6', '7', '8', '9']
  | '6' => d ∈ ['6']
  | '7' => d ∈ ['0', '1', '3', '5', '6', '7', '8']
  | '9' => d ∈ ['8', '9']
  | _ => false

/-- `str.matches(PHONE_REGEX)`. -/
def matchesPhone : Text → Bool
  | '1' :: c :: d :: rest => phoneBlock c d && decide (rest.length = 8) && rest.all Char.isDigit
  | _ => false

/-- `StrUtil.isBlank` of a text that may be null. -/
def blank (isBlank : Text → Bool) (text : Option Text) : Bool := text.all isBlank

/-- `RegexUtils.isPhoneInvalid`. -/
def isPhoneInvalid (isBlank : Text → Bool) (phone : Option Text) : Bool :=
  blank isBlank phone || !phone.any matchesPhone

example : matchesPhone "13686869696".toList = true := by decide
example : matchesPhone "15,86869696".toList = true := by decide

/-! ## `tb_user` -/

/-- A row of `tb_user`, the login fields with it. -/
structure Account extends User where
  phone : Text
  /-- the BCrypt text, or blank where no password is set -/
  password : Option Text
  deriving DecidableEq

/-- The primary key and `uniqe_key_phone`. -/
def userKeys : Keys Account := (Keys.on fun a => a.id).or (Keys.on fun a => a.phone)

/-- `tb_user`. -/
abbrev UserTable := Table userKeys

theorem userKeys_clash {f : Account → Account}
    (hf : ∀ a, (f a).id = a.id ∧ (f a).phone = a.phone) (a b : Account) :
    userKeys.clash (f a) b = userKeys.clash a b := by
  simp only [userKeys, Keys.or, Keys.on, sameKey, hf]

/-- `query().eq("phone", phone).one()`. -/
def findByPhone (users : UserTable) (phone : Text) : Option Account :=
  users.rows.find? fun a => a.phone = phone

/-- `getById`. -/
def findById (users : UserTable) (u : UserId) : Option Account :=
  users.rows.find? fun a => a.id = u

/-- The row `createUserWithPhone` saves: the icon of a new `User`, the column default for the
password. -/
def newAccount (u : UserId) (phone nickName : Text) : Account where
  id := u
  nickName := some ("user_".toList ++ nickName)
  icon := some []
  phone := phone
  password := some []

/-- What `updatePassword` writes. -/
def Account.setPassword (hash : Text) (a : Account) : Account :=
  { a with password := some hash, icon := some [] }

/-- What `updateProfile` writes, of the fields that are not null. -/
def Account.setProfile (nickName icon : Option Text) (a : Account) : Account :=
  { a with nickName := nickName.or a.nickName, icon := icon.or a.icon }

/-- `updateById` of a row, which sets neither the id nor the phone. -/
def updateUser (users : UserTable) (u : UserId) (f : Account → Account)
    (hf : ∀ a, (f a).id = a.id ∧ (f a).phone = a.phone) : UserTable :=
  (users.update (fun a => a.id = u) f (userKeys_clash hf)).2

/-! ## Codes -/

/-- `LOGIN_CODE_TTL`, 2 minutes. -/
def loginCodeTtl : ℤ := 2 * 60

/-- `login:code:<phone>` -/
abbrev LoginCodes := Text → Option (Expiring Text)

/-- `set(LOGIN_CODE_KEY + phone, code, LOGIN_CODE_TTL)`. -/
def LoginCodes.set (phone code : Text) (now : Time) (codes : LoginCodes) : LoginCodes :=
  Function.update codes phone (some ⟨code, some (now + loginCodeTtl)⟩)

/-- The codes whose TTL has run out by `now` are gone. -/
def LoginCodes.elapse (now : Time) (codes : LoginCodes) : LoginCodes :=
  fun phone => Expiring.left now (codes phone)

/-! ## Forms -/

/-- The body of `/user/login`. -/
structure LoginFormDTO where
  phone : Option Text
  code : Option Text
  password : Option Text
  deriving DecidableEq

/-- The body of `/user/password`. -/
structure PasswordUpdateDTO where
  oldPassword : Option Text
  newPassword : Option Text
  deriving DecidableEq

section
variable (isBlank : Text → Bool) (checkpw : Text → Text → Option Bool)

/-- `passwordMatches`. -/
def passwordMatches (rawPassword encodedPassword : Text) : Bool :=
  (checkpw rawPassword encodedPassword).getD false

/-- How a login goes on after its first checks. -/
inductive LoginBy where
  | code (phone : Text) (code : Option Text)
  | password (phone password : Text)
  deriving DecidableEq

/-- `login` up to its first statement. -/
def checkForm (form : LoginFormDTO) : Except Text LoginBy :=
  match form.phone with
  | none => .error "手机号格式错误！".toList
  | some phone =>
    if isPhoneInvalid isBlank (some phone) then .error "手机号格式错误！".toList
    else
      match form.password with
      | none => .ok (.code phone form.code)
      | some password =>
        if isBlank password then .ok (.code phone form.code) else .ok (.password phone password)

/-- `login` after its `get` of the code: the code it accepts. -/
def acceptedCode (cacheCode code : Option Text) : Except Text Text :=
  match cacheCode with
  | none => .error "验证码错误".toList
  | some cached => if some cached = code then .ok cached else .error "验证码错误".toList

/-- `loginWithPassword` after its query: the user, with the stored password that was matched. -/
def acceptedPassword (password : Text) (user : Option Account) : Except Text (Account × Text) :=
  match user with
  | none => .error "手机号或密码错误".toList
  | some a =>
    match a.password with
    | none => .error "手机号或密码错误".toList
    | some encoded =>
      if isBlank encoded then .error "手机号或密码错误".toList
      else if passwordMatches checkpw password encoded then .ok (a, encoded)
      else .error "手机号或密码错误".toList

/-- `updatePassword` up to its query. -/
def checkNewPassword : Option PasswordUpdateDTO → Except Text Text
  | none => .error "新密码不能为空".toList
  | some passwordUpdate =>
    match passwordUpdate.newPassword with
    | none => .error "新密码不能为空".toList
    | some newPassword =>
      if isBlank newPassword then .error "新密码不能为空".toList
      else if javaLength newPassword < 6 ∨ 20 < javaLength newPassword then
        .error "密码长度必须为6到20位".toList
      else .ok newPassword

/-- The old password a change needs: none where none is set. -/
def oldPasswordGiven (stored oldPassword : Option Text) : Bool :=
  blank isBlank stored ||
    (!blank isBlank oldPassword &&
      oldPassword.any fun old => stored.any (passwordMatches checkpw old))

/-- `updatePassword` after its query of the user. -/
def checkOldPassword (user : Option Account) (oldPassword : Option Text) : Except Text Unit :=
  match user with
  | none => .error "用户不存在".toList
  | some a =>
    if oldPasswordGiven isBlank checkpw a.password oldPassword then .ok ()
    else .error "原密码错误".toList

end

/-! ## Lemmas -/

variable {isBlank : Text → Bool} {checkpw : Text → Text → Option Bool} {users : UserTable}
  {a : Account} {u : UserId} {phone : Text}

theorem clash_id {b : Account} (h : a.id = b.id) : userKeys.clash a b = true := by
  simp [userKeys, Keys.or, Keys.on, sameKey, h]

theorem clash_phone {b : Account} (h : a.phone = b.phone) : userKeys.clash a b = true := by
  simp [userKeys, Keys.or, Keys.on, sameKey, h]

theorem findByPhone_phone (h : findByPhone users phone = some a) :
    a ∈ users.rows ∧ a.phone = phone := by
  have hphone := List.find?_some h
  exact ⟨List.mem_of_find?_eq_some h, of_decide_eq_true hphone⟩

theorem findById_eq_some : findById users u = some a ↔ a ∈ users.rows ∧ a.id = u := by
  constructor
  · intro h
    have hid := List.find?_some h
    exact ⟨List.mem_of_find?_eq_some h, of_decide_eq_true hid⟩
  · rintro ⟨hmem, rfl⟩
    cases hfind : findById users a.id with
    | none => exact absurd rfl (of_decide_eq_false (Bool.eq_false_iff.mpr
        (List.find?_eq_none.mp hfind a hmem)))
    | some b =>
      have hid := List.find?_some hfind
      have hclash := clash_id (of_decide_eq_true hid)
      rw [users.eq_of_clash (List.mem_of_find?_eq_some hfind) hmem hclash]

theorem findById_insert {users' : UserTable} (h : users.insert a = some users') (v : UserId) :
    findById users' v = if v = a.id then some a else findById users v := by
  obtain ⟨hrows, hclash⟩ := Table.insert_eq_some h
  have hnone : findById users a.id = none := by
    cases hfind : findById users a.id with
    | none => rfl
    | some b =>
      obtain ⟨hmem, hid⟩ := findById_eq_some.mp hfind
      exact absurd (clash_id hid) (by rw [hclash b hmem]; exact Bool.false_ne_true)
  unfold findById at hnone ⊢
  rw [hrows, List.find?_append, List.find?_singleton]
  by_cases hv : v = a.id
  · subst hv
    rw [hnone, if_pos rfl, if_pos (decide_eq_true rfl)]
    rfl
  · rw [if_neg hv, if_neg (by rw [decide_eq_true_eq]; exact Ne.symm hv), Option.or_none]

theorem findById_updateUser {f : Account → Account}
    (hf : ∀ a, (f a).id = a.id ∧ (f a).phone = a.phone) (u v : UserId) :
    findById (updateUser users u f hf) v =
      (findById users v).map fun a => if a.id = u then f a else a := by
  have hid : ∀ a : Account, (if a.id = u then f a else a).id = a.id := by
    intro a
    split
    · exact (hf a).1
    · rfl
  unfold findById updateUser
  rw [Table.rows_update, List.find?_map]
  simp only [decide_eq_true_eq]
  congr 2
  funext a
  simp only [Function.comp_apply, hid]

theorem matchesPhone_of_valid (h : ¬isPhoneInvalid isBlank (some phone) = true) :
    matchesPhone phone = true := by
  simp only [isPhoneInvalid, Option.any_some, Bool.or_eq_true, not_or, Bool.not_eq_true,
    Bool.not_eq_false'] at h
  exact h.2

theorem acceptedCode_ok {cacheCode code : Option Text} {accepted : Text}
    (h : acceptedCode cacheCode code = .ok accepted) :
    cacheCode = some accepted ∧ code = some accepted := by
  unfold acceptedCode at h
  split at h
  · cases h
  · split at h
    · rename_i heq
      cases h
      exact ⟨rfl, heq.symm⟩
    · cases h

theorem acceptedPassword_ok {password encoded : Text} {user : Option Account}
    (h : acceptedPassword isBlank checkpw password user = .ok (a, encoded)) :
    user = some a ∧ a.password = some encoded ∧ isBlank encoded = false ∧
      checkpw password encoded = some true := by
  unfold acceptedPassword at h
  split at h
  · cases h
  · split at h
    · cases h
    · rename_i hpassword
      split at h
      · cases h
      · rename_i hblank
        split at h
        · rename_i hmatches
          cases h
          refine ⟨rfl, hpassword, Bool.eq_false_iff.mpr hblank, ?_⟩
          unfold passwordMatches at hmatches
          cases hcheck : checkpw password encoded with
          | none =>
            rw [hcheck] at hmatches
            cases hmatches
          | some result =>
            rw [hcheck] at hmatches
            exact congrArg some hmatches
        · cases h

theorem checkNewPassword_ok {passwordUpdate : Option PasswordUpdateDTO} {newPassword : Text}
    (h : checkNewPassword isBlank passwordUpdate = .ok newPassword) :
    isBlank newPassword = false ∧ 6 ≤ javaLength newPassword ∧ javaLength newPassword ≤ 20 := by
  unfold checkNewPassword at h
  split at h
  · cases h
  · split at h
    · cases h
    · split at h
      · cases h
      · rename_i hblank
        split at h
        · cases h
        · rename_i hlength
          cases h
          rw [not_or, Nat.not_lt, Nat.not_lt] at hlength
          exact ⟨Bool.eq_false_iff.mpr hblank, hlength.1, hlength.2⟩

theorem checkOldPassword_ok {user : Option Account} {oldPassword : Option Text}
    (h : checkOldPassword isBlank checkpw user oldPassword = .ok ()) :
    ∃ a, user = some a ∧ oldPasswordGiven isBlank checkpw a.password oldPassword = true := by
  unfold checkOldPassword at h
  split at h
  · cases h
  · rename_i a
    split at h
    · rename_i hgiven
      exact ⟨a, rfl, hgiven⟩
    · cases h

end Hmdp.Model
