import Hmdp.Lib.History
import Hmdp.Web.Step

/-!
# What warrants a session

The events of the ghost history, and what each needs of those before it: a token is handed out for
the code last sent to the phone of the account, if it is younger than `LOGIN_CODE_TTL`, or for a
password that matches the text last stored for the account; an account is registered for such a
code and for a phone that has none; and a password is set by a request with a token of the account,
which has presented the old password if there was one. A statement between the check and the event
does not take the warrant away (`Earlier`): the check reads the store as it was.
-/

namespace Hmdp.Web

open Hmdp.Lib Hmdp.Model

/-- What a login looks at in an account. -/
structure Credentials where
  phone : Text
  password : Option Text
  deriving DecidableEq

/-- The credentials in a row. -/
def credentialsOf (a : Account) : Credentials := ⟨a.phone, a.password⟩

/-- The credentials of an account by the history, over the table of the start. -/
def credentials (users : UserTable) : List Event → UserId → Option Credentials
  | [], u => (findById users u).map credentialsOf
  | .registered v phone :: h, u => if u = v then some ⟨phone, some []⟩ else credentials users h u
  | .passwordSet v _ _ _ encoded :: h, u =>
    if u = v then (credentials users h u).map fun c => { c with password := some encoded }
    else credentials users h u
  | .codeSent _ _ _ :: h, u => credentials users h u
  | .loggedIn _ _ _ :: h, u => credentials users h u

/-- The code last sent to a phone, and when. -/
def lastCode : List Event → Text → Option (Text × Time)
  | [], _ => none
  | .codeSent phone code time :: h, p => if p = phone then some (code, time) else lastCode h p
  | .registered _ _ :: h, p => lastCode h p
  | .passwordSet _ _ _ _ _ :: h, p => lastCode h p
  | .loggedIn _ _ _ :: h, p => lastCode h p

/-- The code is the one last sent to the phone, and at the time it is still valid. -/
def CodeKnown (phone code : Text) (time : Time) (h : List Event) : Prop :=
  ∃ sent, lastCode h phone = some (code, sent) ∧ sent ≤ time ∧ time < sent + loginCodeTtl

/-- The token has been handed out for the account. -/
def Session (h : List Event) (token : Option Text) (u : UserId) : Prop :=
  ∃ t g, token = some t ∧ Event.loggedIn t u g ∈ h

section
variable (isBlank : Text → Bool) (checkpw : Text → Text → Option Bool)
  (hashpw : Text → Text → Text) (users : UserTable)

/-- The presented code or password was right. -/
def Ground.Given (u : UserId) (h : List Event) (ground : Ground) : Prop :=
  match ground with
  | .code phone sent time => CodeKnown phone sent time h
  | .password phone given encoded =>
    credentials users h u = some ⟨phone, some encoded⟩ ∧ isBlank encoded = false ∧
      checkpw given encoded = some true

/-- A login may hand out a token. -/
def Entitled (h : List Event) (u : UserId) (ground : Ground) : Prop :=
  (∃ c, credentials users h u = some c ∧ c.phone = ground.phone) ∧
    Earlier (fun h₀ => ground.Given isBlank checkpw users u h₀) h

/-- What must have come before an event. -/
def Warranted (h : List Event) : Event → Prop
  | .codeSent phone _ _ => matchesPhone phone = true
  | .registered u phone =>
    credentials users h u = none ∧ (∀ v c, credentials users h v = some c → c.phone ≠ phone) ∧
      ∃ code time, Earlier (CodeKnown phone code time) h
  | .passwordSet u token oldPassword newPassword encoded =>
    Session h token u ∧ 6 ≤ javaLength newPassword ∧ javaLength newPassword ≤ 20 ∧
      (∃ salt, encoded = hashpw newPassword salt) ∧
      Earlier (fun h₀ => ∃ c, credentials users h₀ u = some c ∧
        oldPasswordGiven isBlank checkpw c.password oldPassword = true) h
  | .loggedIn token u ground =>
    (∀ v g, Event.loggedIn token v g ∉ h) ∧ Entitled isBlank checkpw users h u ground

end

variable {isBlank : Text → Bool} {checkpw : Text → Text → Option Bool}
  {hashpw : Text → Text → Text} {users : UserTable} {h : List Event} {e : Event} {u : UserId}
  {token : Option Text} {ground : Ground} {c : Credentials}

/-! ## Warrants are kept -/

theorem session_cons (e : Event) (hs : Session h token u) : Session (e :: h) token u := by
  obtain ⟨t, g, ht, hmem⟩ := hs
  exact ⟨t, g, ht, List.mem_cons_of_mem e hmem⟩

/-- The phone of an account never changes. -/
theorem credentials_cons (he : Warranted isBlank checkpw hashpw users h e)
    (hc : credentials users h u = some c) :
    ∃ c', credentials users (e :: h) u = some c' ∧ c'.phone = c.phone := by
  cases e with
  | codeSent phone code time => exact ⟨c, hc, rfl⟩
  | loggedIn t v g => exact ⟨c, hc, rfl⟩
  | registered v phone =>
    have hne : u ≠ v := by
      rintro rfl
      rw [he.1] at hc
      cases hc
    exact ⟨c, by rw [credentials, if_neg hne, hc], rfl⟩
  | passwordSet v t old new encoded =>
    by_cases hu : u = v
    · exact ⟨{ c with password := some encoded }, by rw [credentials, if_pos hu, hc]; rfl, rfl⟩
    · exact ⟨c, by rw [credentials, if_neg hu, hc], rfl⟩

theorem entitled_cons (he : Warranted isBlank checkpw hashpw users h e)
    (ht : Entitled isBlank checkpw users h u ground) :
    Entitled isBlank checkpw users (e :: h) u ground := by
  obtain ⟨⟨c, hc, hphone⟩, hgiven⟩ := ht
  obtain ⟨c', hc', hphone'⟩ := credentials_cons he hc
  exact ⟨⟨c', hc', hphone'.trans hphone⟩, earlier_cons e hgiven⟩

/-- What a handler of the request is about to do is warranted. -/
def Task.Warranted (isBlank : Text → Bool) (checkpw : Text → Text → Option Bool)
    (hashpw : Text → Text → Text) (users : UserTable) (h : List Event) (request : Request) :
    Task → Prop
  | .start | .expireNew _ | .commitProfile _ => True
  | .findUser phone code time | .createUser phone code time =>
    Earlier (CodeKnown phone code time) h
  | .takeIndex user ground | .deleteOld user ground _ | .setIndex user ground =>
    Entitled isBlank checkpw users h user.id ground
  | .putUser user newToken => Session h (some newToken) user.id
  | .saveProfile token user => Session h (some token) user.id
  | .savePassword u oldPassword newPassword encoded =>
    Web.Warranted isBlank checkpw hashpw users h
      (.passwordSet u request.token oldPassword newPassword encoded)

theorem task_cons {request : Request} {task : Task}
    (he : Warranted isBlank checkpw hashpw users h e)
    (ht : task.Warranted isBlank checkpw hashpw users h request) :
    task.Warranted isBlank checkpw hashpw users (e :: h) request := by
  cases task with
  | start => trivial
  | expireNew t => trivial
  | commitProfile user => trivial
  | findUser phone code time => exact earlier_cons e ht
  | createUser phone code time => exact earlier_cons e ht
  | takeIndex user g => exact entitled_cons he ht
  | deleteOld user g old => exact entitled_cons he ht
  | setIndex user g => exact entitled_cons he ht
  | putUser user t => exact session_cons e ht
  | saveProfile t user => exact session_cons e ht
  | savePassword v old new encoded =>
    obtain ⟨hsession, hmin, hmax, hsalt, hold⟩ := ht
    exact ⟨session_cons e hsession, hmin, hmax, hsalt, earlier_cons e hold⟩

end Hmdp.Web
