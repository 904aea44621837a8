import Hmdp.Lib.Machine
import Hmdp.Model.Interceptor

/-!
# The server's workers

Any number of worker threads, each in one request after the other: the interceptors, then the
handler, then `afterCompletion`. One step is one statement that is sent to Redis or MySQL, with the
code up to the next. The handlers of codes, logins, logouts, profiles and passwords are modelled;
any other handler only ends, and so does a handler whose next statement throws (`finish`).

* Between two requests a worker keeps the user of its `ThreadLocal`, if nobody has removed it.
* `expire` of the interceptor may throw after `saveUser` (`refresh` with a reply that throws). Its
  `preHandle` has not returned then, so no `afterCompletion` is called for it.
* The update of `tb_user` by `updateProfile` is seen by others when its transaction commits. Of
  `tb_user_info` a login reads any row.
* `history` is a ghost: codes sent, accounts registered, passwords set and tokens handed out, newest
  first. Tokens are drawn fresh and are not blank.
-/

namespace Hmdp.Web

open Hmdp.Lib Hmdp.Model

variable {Worker : Type} [DecidableEq Worker]

/-- Why a login hands out a token. -/
inductive Ground where
  /-- the code of the phone was presented, at the given time -/
  | code (phone code : Text) (time : Time)
  /-- a password was presented that matches the stored text -/
  | password (phone password encoded : Text)
  deriving DecidableEq

/-- The phone that was given. -/
def Ground.phone : Ground → Text
  | .code phone _ _ => phone
  | .password phone _ _ => phone

/-- What goes into the history. -/
inductive Event where
  | codeSent (phone code : Text) (time : Time)
  | registered (u : UserId) (phone : Text)
  /-- by a request with the given token -/
  | passwordSet (u : UserId) (token oldPassword : Option Text) (newPassword encoded : Text)
  | loggedIn (token : Text) (u : UserId) (ground : Ground)
  deriving DecidableEq

/-- What a handler is about to do. -/
inductive Task where
  | start
  /-- `login`: `query().eq("phone", phone).one()` -/
  | findUser (phone code : Text) (time : Time)
  /-- `createUserWithPhone`: `save(user)` -/
  | createUser (phone code : Text) (time : Time)
  /-- `createLoginToken`: `getAndDelete(userTokenKey)` -/
  | takeIndex (user : User) (ground : Ground)
  /-- `delete(LOGIN_USER_KEY + oldToken)` -/
  | deleteOld (user : User) (ground : Ground) (oldToken : Text)
  /-- `set(userTokenKey, newToken, …)` -/
  | setIndex (user : User) (ground : Ground)
  /-- `putAll(tokenKey, userMap)` -/
  | putUser (user : User) (newToken : Text)
  /-- `expire(tokenKey, …)` -/
  | expireNew (newToken : Text)
  /-- `updateProfile`: `putAll(LOGIN_USER_KEY + token, userMap)` -/
  | saveProfile (token : Text) (user : LoginUser)
  /-- its transaction commits -/
  | commitProfile (user : LoginUser)
  /-- `updatePassword`: `updateById(update)` -/
  | savePassword (u : UserId) (oldPassword : Option Text) (newPassword encoded : Text)
  deriving DecidableEq

/-- Where the request of a worker is. -/
inductive Stage where
  | idle
  /-- before `RefreshTokenInterceptor.preHandle` -/
  | arrived (request : Request)
  /-- its `expire` -/
  | refresh (request : Request) (token : Text)
  /-- before `LoginInterceptor.preHandle` -/
  | refreshed (request : Request)
  | handling (request : Request) (task : Task)
  /-- before `RefreshTokenInterceptor.afterCompletion` -/
  | completing (request : Request)
  deriving DecidableEq

/-- What a worker has in hand. -/
structure Job where
  /-- `UserHolder` -/
  holder : Option LoginUser
  stage : Stage

/-- The stores, the workers and the history. -/
structure State (Worker : Type) where
  redis : LoginRedis
  codes : LoginCodes
  /-- `tb_user` -/
  users : UserTable
  workers : Worker → Job
  /-- the tokens drawn so far -/
  drawn : List Text
  history : List Event

/-- The steps: time, those of the interceptors, and each statement of a handler. -/
inductive Action (Worker : Type) where
  | arrive (w : Worker) (request : Request)
  /-- `entries(key)` of the interceptor, if the token is not blank -/
  | readHash (w : Worker)
  | readHashThrows (w : Worker)
  | refresh (w : Worker) (reply : Reply)
  | checkLogin (w : Worker)
  | sendCode (w : Worker) (phone code : Text)
  | login (w : Worker) (form : LoginFormDTO)
  | findUser (w : Worker)
  | createUser (w : Worker) (u : UserId) (nickName : Text)
  | takeIndex (w : Worker)
  | deleteOld (w : Worker)
  | setIndex (w : Worker) (newToken : Text)
  | putUser (w : Worker) (userInfo : Option UserInfo)
  | expireNew (w : Worker)
  | logout (w : Worker)
  | updateProfile (w : Worker) (profile : Option UserProfileUpdateDTO) (today : Time)
  | saveProfile (w : Worker)
  | commitProfile (w : Worker)
  | updatePassword (w : Worker) (passwordUpdate : Option PasswordUpdateDTO) (salt : Text)
  | savePassword (w : Worker)
  | finish (w : Worker)
  | complete (w : Worker)
  | elapse (seconds : ℕ)

/-- A worker goes on. -/
def State.setJob (s : State Worker) (w : Worker) (job : Job) : State Worker :=
  { s with workers := Function.update s.workers w job }

theorem workers_setJob (s : State Worker) (w : Worker) (job : Job) :
    (s.setJob w job).workers w = job := Function.update_self ..

theorem workers_setJob_of_ne (s : State Worker) {w w' : Worker} (job : Job) (h : w' ≠ w) :
    (s.setJob w job).workers w' = s.workers w' := Function.update_of_ne h ..

/-- The worker goes on; its user stays. -/
def State.goTo (s : State Worker) (w : Worker) (stage : Stage) : State Worker :=
  s.setJob w ⟨(s.workers w).holder, stage⟩

/-- `createLoginToken` after its `getAndDelete`. -/
def afterTakeIndex (isBlank : Text → Bool) (user : User) (ground : Ground) : Option Text → Task
  | none => .setIndex user ground
  | some oldToken =>
    if isBlank oldToken then .setIndex user ground else .deleteOld user ground oldToken

/-- `updateProfile` after its checks. -/
def afterUpdate (isBlank : Text → Bool) (user : LoginUser) : Option Text → Task
  | none => .commitProfile user
  | some token => if isBlank token then .commitProfile user else .saveProfile token user

/-- `login` up to the end of its first statement: what it does next, `none` where it fails. -/
def loginTask (isBlank : Text → Bool) (checkpw : Text → Text → Option Bool) (s : State Worker)
    (form : LoginFormDTO) : Option Task :=
  match checkForm isBlank form with
  | .error _ => none
  | .ok (.code phone code) =>
    match acceptedCode ((s.codes phone).map Expiring.value) code with
    | .error _ => none
    | .ok accepted => some (.findUser phone accepted s.redis.now)
  | .ok (.password phone password) =>
    match acceptedPassword isBlank checkpw password (findByPhone s.users phone) with
    | .error _ => none
    | .ok (user, encoded) => some (.takeIndex user.toUser (.password phone password encoded))

/-- `updatePassword` up to its update, for the user of the worker. -/
def passwordTask (isBlank : Text → Bool) (checkpw : Text → Text → Option Bool)
    (hashpw : Text → Text → Text) (users : UserTable) (holder : Option LoginUser)
    (passwordUpdate : Option PasswordUpdateDTO) (salt : Text) : Option Task :=
  match checkNewPassword isBlank passwordUpdate with
  | .error _ => none
  | .ok newPassword =>
    match holder with
    | none => none
    | some user =>
      let oldPassword := passwordUpdate.bind PasswordUpdateDTO.oldPassword
      match checkOldPassword isBlank checkpw (findById users user.id) oldPassword with
      | .error _ => none
      | .ok _ => some (.savePassword user.id oldPassword newPassword (hashpw newPassword salt))

/-- The handler goes on with a task, or returns. -/
def State.proceed (s : State Worker) (w : Worker) (request : Request) : Option Task → State Worker
  | none => s.goTo w (.completing request)
  | some task => s.goTo w (.handling request task)

section
variable (isBlank : Text → Bool) (trim : Text → Text) (checkpw : Text → Text → Option Bool)
  (hashpw : Text → Text → Text)

/-- The interceptors. -/
def intercept (s : State Worker) (w : Worker) : Action Worker → Stage → Option (State Worker)
  | .readHash _, .arrived request =>
    match foundUser isBlank s.redis request with
    | none => some (s.goTo w (.refreshed request))
    | some (token, user) => some (s.setJob w ⟨some user, .refresh request token⟩)
  | .readHashThrows _, .arrived request =>
    if blank isBlank request.token then none else some (s.goTo w .idle)
  | .refresh _ .returns, .refresh request token =>
    some { s.goTo w (.refreshed request) with redis := s.redis.expire token }
  | .refresh _ (.throws applied), .refresh _ token =>
    some { s.goTo w .idle with redis := if applied then s.redis.expire token else s.redis }
  | .checkLogin _, .refreshed request =>
    if admitted request (s.workers w).holder then some (s.goTo w (.handling request .start))
    else some (s.goTo w (.completing request))
  | _, _ => none

/-- The first statements of the modelled handlers. -/
def handle (s : State Worker) (w : Worker) (request : Request) :
    Action Worker → Option (State Worker)
  | .sendCode _ phone code =>
    if request.path ≠ codePath then none
    else if isPhoneInvalid isBlank (some phone) then some (s.goTo w (.completing request))
    else some { s.goTo w (.completing request) with
      codes := s.codes.set phone code s.redis.now
      history := .codeSent phone code s.redis.now :: s.history }
  | .login _ form =>
    if request.path ≠ loginPath then none
    else some (s.proceed w request (loginTask isBlank checkpw s form))
  | .logout _ =>
    if request.path ≠ logoutPath then none
    else
      match request.token with
      | none => some (s.goTo w (.completing request))
      | some token =>
        if isBlank token then some (s.goTo w (.completing request))
        else some { s.goTo w (.completing request) with redis := s.redis.delete token }
  | .updateProfile _ profile today =>
    if request.path ≠ profilePath then none
    else
      match (s.workers w).holder with
      | none => some (s.goTo w (.completing request))
      | some user =>
        match updatedUser isBlank trim today (findById s.users user.id).isSome profile user with
        | .error _ => some (s.goTo w (.completing request))
        | .ok updated =>
          some (s.setJob w ⟨some updated,
            .handling request (afterUpdate isBlank updated request.token)⟩)
  | .updatePassword _ passwordUpdate salt =>
    if request.path ≠ passwordPath then none
    else some (s.proceed w request
      (passwordTask isBlank checkpw hashpw s.users (s.workers w).holder passwordUpdate salt))
  | _ => none

/-- The later statements. -/
def resume (s : State Worker) (w : Worker) (request : Request) :
    Action Worker → Task → Option (State Worker)
  | .findUser _, .findUser phone code time =>
    match findByPhone s.users phone with
    | none => some (s.goTo w (.handling request (.createUser phone code time)))
    | some user =>
      some (s.goTo w (.handling request (.takeIndex user.toUser (.code phone code time))))
  | .createUser _ u nickName, .createUser phone code time =>
    if (findById s.users u).isSome then none
    else
      let user := newAccount u phone nickName
      match s.users.insert user with
      | none => some (s.goTo w (.completing request))
      | some users =>
        some { s.goTo w (.handling request (.takeIndex user.toUser (.code phone code time))) with
          users
          history := .registered u phone :: s.history }
  | .takeIndex _, .takeIndex user ground =>
    let r := s.redis.getAndDelete user.id
    some { s.goTo w (.handling request (afterTakeIndex isBlank user ground r.1)) with redis := r.2 }
  | .deleteOld _, .deleteOld user ground oldToken =>
    some { s.goTo w (.handling request (.setIndex user ground)) with
      redis := s.redis.delete oldToken }
  | .setIndex _ newToken, .setIndex user ground =>
    if newToken ∈ s.drawn ∨ isBlank newToken = true then none
    else some { s.goTo w (.handling request (.putUser user newToken)) with
      redis := s.redis.setIndex user.id newToken
      drawn := newToken :: s.drawn
      history := .loggedIn newToken user.id ground :: s.history }
  | .putUser _ userInfo, .putUser user newToken =>
    some { s.goTo w (.handling request (.expireNew newToken)) with
      redis := s.redis.putAll newToken (user.toDTO userInfo) }
  | .expireNew _, .expireNew newToken =>
    some { s.goTo w (.completing request) with redis := s.redis.expire newToken }
  | .saveProfile _, .saveProfile token user =>
    some { s.goTo w (.handling request (.commitProfile user)) with
      redis := s.redis.putAll token user }
  | .commitProfile _, .commitProfile user =>
    some { s.goTo w (.completing request) with
      users := updateUser s.users user.id (Account.setProfile user.nickName user.icon)
        fun _ => ⟨rfl, rfl⟩ }
  | .savePassword _, .savePassword u oldPassword newPassword encoded =>
    some { s.goTo w (.completing request) with
      users := updateUser s.users u (Account.setPassword encoded) fun _ => ⟨rfl, rfl⟩
      history := .passwordSet u request.token oldPassword newPassword encoded :: s.history }
  | _, _ => none

/-- The worker of a step; time belongs to nobody. -/
def Action.worker : Action Worker → Option Worker
  | .arrive w _ | .readHash w | .readHashThrows w | .refresh w _ | .checkLogin w | .sendCode w _ _
  | .login w _ | .findUser w | .createUser w _ _ | .takeIndex w | .deleteOld w | .setIndex w _
  | .putUser w _ | .expireNew w | .logout w | .updateProfile w _ _ | .saveProfile w
  | .commitProfile w | .updatePassword w _ _ | .savePassword w | .finish w | .complete w => some w
  | .elapse _ => none

/-- A step of a worker, from where its request is. -/
def stepWorker (s : State Worker) (w : Worker) (a : Action Worker) : Option (State Worker) :=
  match a, (s.workers w).stage with
  | .arrive _ request, .idle => some (s.goTo w (.arrived request))
  | .finish _, .handling request _ => some (s.goTo w (.completing request))
  | .complete _, .completing _ => some (s.setJob w ⟨none, .idle⟩)
  | a, .handling request .start => handle isBlank trim checkpw hashpw s w request a
  | a, .handling request task => resume isBlank s w request a task
  | a, stage => intercept isBlank s w a stage

/-- One step; `none` where the worker is not where the action needs it. -/
def step (s : State Worker) (a : Action Worker) : Option (State Worker) :=
  match a with
  | .elapse seconds =>
    some { s with
      redis := s.redis.elapse (s.redis.now + seconds)
      codes := s.codes.elapse (s.redis.now + seconds) }
  | a => a.worker.bind fun w => stepWorker isBlank trim checkpw hashpw s w a

end

/-- Nobody is logged in, no code is out, and all workers wait. -/
def State.start (users : UserTable) (now : Time) : State Worker :=
  ⟨.empty now, fun _ => none, users, fun _ => ⟨none, .idle⟩, [], []⟩

/-- No `expire` of the interceptor throws. -/
def RefreshReturns (_ : State Worker) : Action Worker → Prop
  | .refresh _ reply => reply = .returns
  | _ => True

instance (s : State Worker) (a : Action Worker) : Decidable (RefreshReturns s a) :=
  match a with
  | .refresh _ reply => inferInstanceAs (Decidable (reply = .returns))
  | .arrive .. | .readHash .. | .readHashThrows .. | .checkLogin .. | .sendCode .. | .login ..
  | .findUser .. | .createUser .. | .takeIndex .. | .deleteOld .. | .setIndex .. | .putUser ..
  | .expireNew .. | .logout .. | .updateProfile .. | .saveProfile .. | .commitProfile ..
  | .updatePassword .. | .savePassword .. | .finish .. | .complete .. | .elapse .. => isTrue trivial

end Hmdp.Web
