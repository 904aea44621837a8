import Hmdp.Login.Step
import Hmdp.Web.Warrant

/-!
# Who a handler runs as

While no `expire` of the interceptor throws, a handler runs as the user whose login was handed the
token of its own request, whatever the other workers do between its statements; and every login was
warranted.

* `Job.Warranted`: what is true of one worker by the history. It is kept when events follow
  (`job_cons`), so a step is about its own worker and the stores only.
* `inv_step`: the invariant `Inv` is kept.
* `handler_authenticated`: the result, over every run.
-/

namespace Hmdp.Web

open Hmdp.Lib Hmdp.Model

/-- The request of a worker, once the interceptor has looked at its token. -/
def Stage.request : Stage → Option Request
  | .idle | .arrived _ => none
  | .refresh request _ | .refreshed request | .handling request _ | .completing request =>
    some request

/-- Neither in the handler nor about to refresh a token. -/
def Stage.Quiet : Stage → Prop
  | .refresh _ _ | .handling _ _ => False
  | _ => True

section
variable (isBlank : Text → Bool) (checkpw : Text → Text → Option Bool)
  (hashpw : Text → Text → Text) (users : UserTable)

/-- What a worker goes by is warranted by the history. -/
structure Job.Warranted (h : List Event) (job : Job) : Prop where
  /-- the user of the worker is the one of its request -/
  holder : ∀ user, job.holder = some user →
    ∃ request, job.stage.request = some request ∧ Session h request.token user.id
  refreshing : ∀ request token, job.stage = .refresh request token → job.holder.isSome = true
  admitted : ∀ request task, job.stage = .handling request task →
    isExcluded request.path = true ∨ job.holder.isSome = true
  task : ∀ request task, job.stage = .handling request task →
    task.Warranted isBlank checkpw hashpw users h request

/-- What the stores say by the history. -/
structure Recorded (redis : LoginRedis) (codes : LoginCodes) (table : UserTable)
    (drawn : List Text) (h : List Event) : Prop where
  hash : ∀ token e, redis.hash token = some e → Session h (some token) e.value.id
  codes : ∀ phone e, codes phone = some e → ∃ sent, lastCode h phone = some (e.value, sent) ∧
    e.deadline = some (sent + loginCodeTtl) ∧ sent ≤ redis.now ∧ redis.now < sent + loginCodeTtl
  rows : ∀ u, (findById table u).map credentialsOf = credentials users h u
  drawn : ∀ token u g, Event.loggedIn token u g ∈ h → token ∈ drawn
  justified : Justified (Web.Warranted isBlank checkpw hashpw users) h

/-- **The invariant**: the stores are what the history says, and so is what each worker goes by. -/
structure Inv {Worker : Type} (s : State Worker) : Prop where
  recorded : Recorded isBlank checkpw hashpw users s.redis s.codes s.users s.drawn s.history
  jobs : ∀ w, (s.workers w).Warranted isBlank checkpw hashpw users s.history

end

variable {Worker : Type} [DecidableEq Worker] {isBlank : Text → Bool} {trim : Text → Text}
  {checkpw : Text → Text → Option Bool} {hashpw : Text → Text → Text} {users table : UserTable}
  {s t : State Worker} {a : Action Worker} {w : Worker} {job : Job} {h : List Event} {e : Event}
  {redis r : LoginRedis} {codes : LoginCodes} {drawn : List Text} {request : Request} {task : Task}
  {stage : Stage}

/-! ## Workers -/

theorem job_cons (he : Warranted isBlank checkpw hashpw users h e)
    (hj : job.Warranted isBlank checkpw hashpw users h) :
    job.Warranted isBlank checkpw hashpw users (e :: h) where
  holder user huser := by
    obtain ⟨request, hrequest, hsession⟩ := hj.holder user huser
    exact ⟨request, hrequest, session_cons e hsession⟩
  refreshing := hj.refreshing
  admitted := hj.admitted
  task request task htask := task_cons he (hj.task request task htask)

/-- A handler goes on with a warranted task. -/
theorem job_task {holder : Option LoginUser} {before : Task}
    (hj : Job.Warranted isBlank checkpw hashpw users h ⟨holder, .handling request before⟩)
    (ht : task.Warranted isBlank checkpw hashpw users h request) :
    Job.Warranted isBlank checkpw hashpw users h ⟨holder, .handling request task⟩ where
  holder user huser := hj.holder user huser
  refreshing request' token h' := by cases h'
  admitted request' task' h' := by
    cases h'
    exact hj.admitted request before rfl
  task request' task' h' := by
    cases h'
    exact ht

theorem Stage.Quiet.ne_refresh {token : Text} (hq : stage.Quiet) :
    stage ≠ .refresh request token := by
  rintro rfl
  exact hq

theorem Stage.Quiet.ne_handling (hq : stage.Quiet) : stage ≠ .handling request task := by
  rintro rfl
  exact hq

/-- A worker goes on with its request, outside the handler. -/
theorem job_stage {holder : Option LoginUser} {before after : Stage}
    (hj : Job.Warranted isBlank checkpw hashpw users h ⟨holder, before⟩)
    (hrequest : before.request = after.request) (hquiet : after.Quiet) :
    Job.Warranted isBlank checkpw hashpw users h ⟨holder, after⟩ where
  holder user huser := by
    obtain ⟨request, hreq, hsession⟩ := hj.holder user huser
    exact ⟨request, hrequest.symm.trans hreq, hsession⟩
  refreshing _ _ h' := absurd h' hquiet.ne_refresh
  admitted _ _ h' := absurd h' hquiet.ne_handling
  task _ _ h' := absurd h' hquiet.ne_handling

/-- A worker without a user, outside the handler. -/
theorem job_nobody (hquiet : stage.Quiet) :
    Job.Warranted isBlank checkpw hashpw users h ⟨none, stage⟩ where
  holder user huser := by cases huser
  refreshing _ _ h' := absurd h' hquiet.ne_refresh
  admitted _ _ h' := absurd h' hquiet.ne_handling
  task _ _ h' := absurd h' hquiet.ne_handling

/-- Between two requests a worker has no user. -/
theorem holder_eq_none (hj : job.Warranted isBlank checkpw hashpw users h)
    (hrequest : job.stage.request = none) : job.holder = none := by
  cases hholder : job.holder with
  | none => rfl
  | some user =>
    obtain ⟨request, hreq, -⟩ := hj.holder user hholder
    rw [hrequest] at hreq
    cases hreq

/-! ## One worker and the stores -/

theorem inv_job (hi : Inv isBlank checkpw hashpw users s)
    (hj : job.Warranted isBlank checkpw hashpw users s.history) :
    Inv isBlank checkpw hashpw users (s.setJob w job) where
  recorded := hi.recorded
  jobs w' := by
    by_cases hw : w' = w
    · subst hw
      rw [workers_setJob]
      exact hj
    · rw [workers_setJob_of_ne s job hw]
      exact hi.jobs w'

/-- A command of the worker on the tokens. -/
theorem inv_redis (hi : Inv isBlank checkpw hashpw users s) (hnow : r.now = s.redis.now)
    (hhash : ∀ token e, r.hash token = some e → Session s.history (some token) e.value.id)
    (hj : job.Warranted isBlank checkpw hashpw users s.history) :
    Inv isBlank checkpw hashpw users { s.setJob w job with redis := r } where
  recorded :=
    { hi.recorded with
      hash := hhash
      codes := by
        intro phone e he
        rw [hnow]
        exact hi.recorded.codes phone e he }
  jobs := (inv_job hi hj).jobs

/-- One that adds no hash. -/
theorem inv_within (hi : Inv isBlank checkpw hashpw users s) (hnow : r.now = s.redis.now)
    (hw : Login.Within s.redis r) (hj : job.Warranted isBlank checkpw hashpw users s.history) :
    Inv isBlank checkpw hashpw users { s.setJob w job with redis := r } := by
  refine inv_redis hi hnow (fun token e' he' => ?_) hj
  obtain ⟨e, he, hid⟩ := hw token e' he'
  rw [← hid]
  exact hi.recorded.hash token e he

/-- A step of the worker with a warranted event. -/
theorem inv_event (hi : Inv isBlank checkpw hashpw users s)
    (he : Warranted isBlank checkpw hashpw users s.history e)
    (hr : Recorded isBlank checkpw hashpw users redis codes table drawn (e :: s.history))
    (hj : job.Warranted isBlank checkpw hashpw users (e :: s.history)) :
    Inv isBlank checkpw hashpw users
      ⟨redis, codes, table, Function.update s.workers w job, drawn, e :: s.history⟩ where
  recorded := hr
  jobs w' := by
    by_cases hw : w' = w
    · subst hw
      simp only [Function.update_self]
      exact hj
    · simp only [Function.update_of_ne hw]
      exact job_cons he (hi.jobs w')

/-! ## The interceptors -/

omit [DecidableEq Worker] in
/-- The worker as it is. -/
theorem job_of_stage (hi : Inv isBlank checkpw hashpw users s)
    (hstage : (s.workers w).stage = stage) :
    Job.Warranted isBlank checkpw hashpw users s.history ⟨(s.workers w).holder, stage⟩ := by
  rw [← hstage]
  exact hi.jobs w

theorem inv_intercept (hi : Inv isBlank checkpw hashpw users s)
    (hstage : (s.workers w).stage = stage) (ha : RefreshReturns s a)
    (hstep : intercept isBlank s w a stage = some t) : Inv isBlank checkpw hashpw users t := by
  have hj := job_of_stage hi hstage
  unfold intercept at hstep
  split at hstep
  · -- `entries`
    rename_i request
    have hnone := holder_eq_none hj rfl
    split at hstep
    · cases hstep
      rw [State.goTo, show (s.workers w).holder = none from hnone]
      exact inv_job hi (job_nobody trivial)
    · rename_i token user hfound
      cases hstep
      obtain ⟨htoken, -, e, he, rfl⟩ := foundUser_eq_some.mp hfound
      refine inv_job hi ⟨fun user huser => ?_, fun _ _ _ => rfl, fun _ _ h => (by cases h),
        fun _ _ h => (by cases h)⟩
      cases huser
      refine ⟨request, rfl, ?_⟩
      rw [htoken]
      exact hi.recorded.hash token e he
  · split at hstep
    · cases hstep
    · cases hstep
      have hnone := holder_eq_none hj rfl
      rw [State.goTo, show (s.workers w).holder = none from hnone]
      exact inv_job hi (job_nobody trivial)
  · rename_i request token
    cases hstep
    exact inv_within hi rfl (Login.within_expire token s.redis)
      (job_stage hj rfl trivial)
  · cases ha
  · -- `LoginInterceptor`
    rename_i request
    split at hstep
    · rename_i hadmitted
      cases hstep
      refine inv_job hi ⟨hj.holder, fun _ _ h => (by cases h), fun request' task h => ?_,
        fun request' task h => ?_⟩
      · cases h
        rw [admitted, Bool.or_eq_true] at hadmitted
        exact hadmitted
      · cases h
        trivial
    · cases hstep
      exact inv_job hi (job_stage hj rfl trivial)
  · cases hstep

/-! ## The stores after an event -/

theorem mem_loggedIn_cons {token : Text} {u : UserId} {g : Ground}
    (hne : ∀ token u g, e ≠ .loggedIn token u g) :
    Event.loggedIn token u g ∈ e :: h ↔ Event.loggedIn token u g ∈ h := by
  rw [List.mem_cons]
  constructor
  · rintro (heq | hmem)
    · exact absurd heq.symm (hne token u g)
    · exact hmem
  · exact .inr

theorem recorded_codeSent {phone code : Text}
    (hr : Recorded isBlank checkpw hashpw users redis codes table drawn h)
    (he : Warranted isBlank checkpw hashpw users h (.codeSent phone code redis.now)) :
    Recorded isBlank checkpw hashpw users redis (codes.set phone code redis.now) table drawn
      (.codeSent phone code redis.now :: h) where
  hash token e' he' := session_cons _ (hr.hash token e' he')
  codes other e' he' := by
    unfold LoginCodes.set at he'
    rw [lastCode]
    by_cases hphone : other = phone
    · subst hphone
      rw [Function.update_self] at he'
      cases he'
      rw [if_pos rfl]
      exact ⟨redis.now, rfl, rfl, Int.le_refl _, Int.lt_add_of_pos_right _ (by decide)⟩
    · rw [Function.update_of_ne hphone] at he'
      rw [if_neg hphone]
      exact hr.codes other e' he'
  rows := hr.rows
  drawn token u g hmem := hr.drawn token u g ((mem_loggedIn_cons (by simp)).mp hmem)
  justified := ⟨he, hr.justified⟩

theorem recorded_registered {u : UserId} {phone nickName : Text} {table' : UserTable}
    (hr : Recorded isBlank checkpw hashpw users redis codes table drawn h)
    (hinsert : table.insert (newAccount u phone nickName) = some table')
    (he : Warranted isBlank checkpw hashpw users h (.registered u phone)) :
    Recorded isBlank checkpw hashpw users redis codes table' drawn (.registered u phone :: h) where
  hash token e' he' := session_cons _ (hr.hash token e' he')
  codes := hr.codes
  rows v := by
    rw [findById_insert hinsert, credentials, show (newAccount u phone nickName).id = u from rfl]
    by_cases hv : v = u
    · rw [if_pos hv, if_pos hv]
      rfl
    · rw [if_neg hv, if_neg hv]
      exact hr.rows v
  drawn token v g hmem := hr.drawn token v g ((mem_loggedIn_cons (by simp)).mp hmem)
  justified := ⟨he, hr.justified⟩

theorem recorded_passwordSet {u : UserId} {token old : Option Text} {new encoded : Text}
    (hr : Recorded isBlank checkpw hashpw users redis codes table drawn h)
    (he : Warranted isBlank checkpw hashpw users h (.passwordSet u token old new encoded)) :
    Recorded isBlank checkpw hashpw users redis codes
      (updateUser table u (Account.setPassword encoded) fun _ => ⟨rfl, rfl⟩) drawn
      (.passwordSet u token old new encoded :: h) where
  hash other e' he' := session_cons _ (hr.hash other e' he')
  codes := hr.codes
  rows v := by
    rw [findById_updateUser, credentials, ← hr.rows v]
    by_cases hv : v = u
    · subst hv
      rw [if_pos rfl]
      cases hfind : findById table v with
      | none => rfl
      | some a =>
        simp only [Option.map_some, (findById_eq_some.mp hfind).2, if_true]
        rfl
    · rw [if_neg hv]
      cases hfind : findById table v with
      | none => rfl
      | some a => simp only [Option.map_some, (findById_eq_some.mp hfind).2, if_neg hv]
  drawn other v g hmem := hr.drawn other v g ((mem_loggedIn_cons (by simp)).mp hmem)
  justified := ⟨he, hr.justified⟩

theorem recorded_loggedIn {newToken : Text} {u : UserId} {g : Ground}
    (hr : Recorded isBlank checkpw hashpw users redis codes table drawn h)
    (he : Warranted isBlank checkpw hashpw users h (.loggedIn newToken u g)) :
    Recorded isBlank checkpw hashpw users (redis.setIndex u newToken) codes table
      (newToken :: drawn) (.loggedIn newToken u g :: h) where
  hash token e' he' := session_cons _ (hr.hash token e' he')
  codes := hr.codes
  rows := hr.rows
  drawn token v g' hmem := by
    rcases List.mem_cons.mp hmem with heq | hmem
    · cases heq
      exact List.mem_cons_self
    · exact List.mem_cons_of_mem newToken (hr.drawn token v g' hmem)
  justified := ⟨he, hr.justified⟩

/-! ## The handlers -/

omit [DecidableEq Worker] in
theorem loginTask_warranted {form : LoginFormDTO}
    (hi : Inv isBlank checkpw hashpw users s) (h : loginTask isBlank checkpw s form = some task) :
    task.Warranted isBlank checkpw hashpw users s.history request := by
  unfold loginTask at h
  split at h
  · cases h
  · rename_i phone code hform
    split at h
    · cases h
    · rename_i accepted haccepted
      cases h
      obtain ⟨hcached, -⟩ := acceptedCode_ok haccepted
      obtain ⟨e, he, rfl⟩ := Option.map_eq_some_iff.mp hcached
      obtain ⟨sent, hlast, -, hsent, hnow⟩ := hi.recorded.codes phone e he
      exact earlier_now ⟨sent, hlast, hsent, hnow⟩
  · rename_i phone password hform
    split at h
    · cases h
    · rename_i user encoded haccepted
      cases h
      obtain ⟨hfind, hpassword, hblank, hcheck⟩ := acceptedPassword_ok haccepted
      obtain ⟨hmem, hphone⟩ := findByPhone_phone hfind
      have hc : credentials users s.history user.id = some ⟨phone, some encoded⟩ := by
        rw [← hi.recorded.rows, findById_eq_some.mpr ⟨hmem, rfl⟩, Option.map_some, credentialsOf,
          hphone, hpassword]
      exact ⟨⟨_, hc, rfl⟩, earlier_now ⟨hc, hblank, hcheck⟩⟩

omit [DecidableEq Worker] in
theorem passwordTask_warranted {passwordUpdate : Option PasswordUpdateDTO} {salt : Text}
    {holder : Option LoginUser} (hi : Inv isBlank checkpw hashpw users s)
    (hj : Job.Warranted isBlank checkpw hashpw users s.history ⟨holder, .handling request .start⟩)
    (h : passwordTask isBlank checkpw hashpw s.users holder passwordUpdate salt = some task) :
    task.Warranted isBlank checkpw hashpw users s.history request := by
  unfold passwordTask at h
  split at h
  · cases h
  · rename_i newPassword hnew
    split at h
    · cases h
    · rename_i user
      simp only at h
      split at h
      · cases h
      · rename_i hold
        cases h
        obtain ⟨-, hmin, hmax⟩ := checkNewPassword_ok hnew
        obtain ⟨request', hrequest, hsession⟩ := hj.holder user rfl
        cases hrequest
        obtain ⟨a, hfind, hgiven⟩ := checkOldPassword_ok hold
        refine ⟨hsession, hmin, hmax, ⟨salt, rfl⟩, earlier_now ⟨credentialsOf a, ?_, hgiven⟩⟩
        rw [← hi.recorded.rows, hfind]
        rfl

/-- `updateProfile` writes the hash of its own token. -/
theorem afterUpdate_warranted {user : LoginUser} (hs : Session h request.token user.id) :
    (afterUpdate isBlank user request.token).Warranted isBlank checkpw hashpw users h request := by
  cases htoken : request.token with
  | none => trivial
  | some token =>
    rw [htoken] at hs
    unfold afterUpdate
    simp only
    split
    · trivial
    · exact hs

/-- A worker whose handler has returned. -/
theorem job_completing {holder : Option LoginUser}
    (hj : Job.Warranted isBlank checkpw hashpw users h ⟨holder, .handling request task⟩) :
    Job.Warranted isBlank checkpw hashpw users h ⟨holder, .completing request⟩ :=
  job_stage hj rfl trivial

theorem inv_proceed {next : Option Task} (hi : Inv isBlank checkpw hashpw users s)
    (hj : Job.Warranted isBlank checkpw hashpw users s.history
      ⟨(s.workers w).holder, .handling request task⟩)
    (hnext : ∀ task, next = some task →
      task.Warranted isBlank checkpw hashpw users s.history request) :
    Inv isBlank checkpw hashpw users (s.proceed w request next) := by
  cases next with
  | none => exact inv_job hi (job_completing hj)
  | some task => exact inv_job hi (job_task hj (hnext task rfl))

theorem inv_handle (hi : Inv isBlank checkpw hashpw users s)
    (hstage : (s.workers w).stage = .handling request .start)
    (hstep : handle isBlank trim checkpw hashpw s w request a = some t) :
    Inv isBlank checkpw hashpw users t := by
  have hj := job_of_stage hi hstage
  have hreturn := inv_job hi (w := w) (job_completing hj)
  unfold handle at hstep
  split at hstep
  · -- `sendCode`
    rename_i phone code
    split at hstep
    · cases hstep
    · split at hstep
      · cases hstep
        exact hreturn
      · rename_i hvalid
        cases hstep
        have he : Warranted isBlank checkpw hashpw users s.history
            (.codeSent phone code s.redis.now) := matchesPhone_of_valid hvalid
        exact inv_event hi he (recorded_codeSent hi.recorded he) (job_cons he (job_completing hj))
  · split at hstep
    · cases hstep
    · cases hstep
      exact inv_proceed hi hj fun task h => loginTask_warranted hi h
  · split at hstep
    · cases hstep
    · split at hstep
      · cases hstep
        exact hreturn
      · split at hstep
        · cases hstep
          exact hreturn
        · cases hstep
          exact inv_within hi rfl (Login.within_delete _ s.redis) (job_completing hj)
  · -- `updateProfile`
    split at hstep
    · cases hstep
    · split at hstep
      · cases hstep
        exact hreturn
      · rename_i user hholder
        split at hstep
        · cases hstep
          exact hreturn
        · rename_i updated hupdated
          cases hstep
          have hid := updatedUser_id hupdated
          obtain ⟨request', hrequest, hsession⟩ := hj.holder user hholder
          cases hrequest
          rw [← hid] at hsession
          refine inv_job hi ⟨fun user' huser => ?_, fun _ _ _ => rfl, fun _ _ _ => .inr rfl,
            fun request' task h => ?_⟩
          · cases huser
            exact ⟨request, rfl, hsession⟩
          · cases h
            exact afterUpdate_warranted hsession
  · split at hstep
    · cases hstep
    · cases hstep
      exact inv_proceed hi hj fun task h => passwordTask_warranted hi hj h
  · cases hstep

/-! ## The later statements -/

omit [DecidableEq Worker] in
/-- A phone without a row and an id without one. -/
theorem registered_warranted {u : UserId} {phone code nickName : Text} {time : Time}
    {table' : UserTable} (hi : Inv isBlank checkpw hashpw users s)
    (hknown : Earlier (CodeKnown phone code time) s.history)
    (hfree : (findById s.users u).isSome ≠ true)
    (hinsert : s.users.insert (newAccount u phone nickName) = some table') :
    Warranted isBlank checkpw hashpw users s.history (.registered u phone) := by
  refine ⟨?_, fun v c hc heq => ?_, code, time, hknown⟩
  · rw [← hi.recorded.rows, Option.map_eq_none_iff, ← Option.not_isSome_iff_eq_none]
    exact hfree
  · rw [← hi.recorded.rows, Option.map_eq_some_iff] at hc
    obtain ⟨a, ha, rfl⟩ := hc
    have hclash := (Table.insert_eq_some hinsert).2 a (findById_eq_some.mp ha).1
    rw [clash_phone (b := newAccount u phone nickName) heq] at hclash
    cases hclash

/-- The account a login by code has found, or has just registered. -/
theorem entitled_code {u : UserId} {phone code : Text} {time : Time} {p : Option Text}
    (hc : credentials users h u = some ⟨phone, p⟩)
    (hknown : Earlier (CodeKnown phone code time) h) :
    Entitled isBlank checkpw users h u (.code phone code time) := by
  obtain ⟨h₀, hsuffix, hk⟩ := hknown
  exact ⟨⟨_, hc, rfl⟩, h₀, hsuffix, hk⟩

theorem inv_createUser {u : UserId} {phone code nickName : Text} {time : Time} {table' : UserTable}
    (hi : Inv isBlank checkpw hashpw users s)
    (hj : Job.Warranted isBlank checkpw hashpw users s.history
      ⟨(s.workers w).holder, .handling request task⟩)
    (hknown : Earlier (CodeKnown phone code time) s.history)
    (hfree : (findById s.users u).isSome ≠ true)
    (hinsert : s.users.insert (newAccount u phone nickName) = some table') :
    Inv isBlank checkpw hashpw users
      { s.goTo w (.handling request
        (.takeIndex (newAccount u phone nickName).toUser (.code phone code time))) with
        users := table', history := .registered u phone :: s.history } := by
  have he := registered_warranted hi hknown hfree hinsert
  refine inv_event hi he (recorded_registered hi.recorded hinsert he) (job_task (job_cons he hj) ?_)
  refine entitled_code (p := some []) ?_ (earlier_cons _ hknown)
  rw [credentials, show (newAccount u phone nickName).id = u from rfl, if_pos rfl]

theorem inv_setIndex {user : User} {ground : Ground} {newToken : Text}
    (hi : Inv isBlank checkpw hashpw users s)
    (hj : Job.Warranted isBlank checkpw hashpw users s.history
      ⟨(s.workers w).holder, .handling request (.setIndex user ground)⟩)
    (hfresh : newToken ∉ s.drawn) :
    Inv isBlank checkpw hashpw users
      { s.goTo w (.handling request (.putUser user newToken)) with
        redis := s.redis.setIndex user.id newToken, drawn := newToken :: s.drawn
        history := .loggedIn newToken user.id ground :: s.history } := by
  have he : Warranted isBlank checkpw hashpw users s.history
      (.loggedIn newToken user.id ground) :=
    ⟨fun v g hmem => hfresh (hi.recorded.drawn newToken v g hmem), hj.task request _ rfl⟩
  exact inv_event hi he (recorded_loggedIn hi.recorded he)
    (job_task (job_cons he hj) ⟨newToken, ground, rfl, List.mem_cons_self⟩)

/-- The hash of a token gets a user the token has been handed out for. -/
theorem inv_putAll {token : Text} {user : LoginUser} (hi : Inv isBlank checkpw hashpw users s)
    (hs : Session s.history (some token) user.id)
    (hj : job.Warranted isBlank checkpw hashpw users s.history) :
    Inv isBlank checkpw hashpw users
      { s.setJob w job with redis := s.redis.putAll token user } := by
  refine inv_redis hi rfl (fun other e' he' => ?_) hj
  rcases Login.hash_putAll he' with ⟨rfl, hid⟩ | ⟨-, hold⟩
  · rw [hid]
    exact hs
  · exact hi.recorded.hash other e' hold

/-- `updateProfile` commits; an account keeps its phone and its password. -/
theorem recorded_setProfile {u : UserId} {nickName icon : Option Text}
    (hr : Recorded isBlank checkpw hashpw users redis codes table drawn h) :
    Recorded isBlank checkpw hashpw users redis codes
      (updateUser table u (Account.setProfile nickName icon) fun _ => ⟨rfl, rfl⟩) drawn h where
  hash := hr.hash
  codes := hr.codes
  rows v := by
    rw [findById_updateUser, ← hr.rows v, Option.map_map]
    congr 1
    funext a
    rw [Function.comp_apply]
    split <;> rfl
  drawn := hr.drawn
  justified := hr.justified

theorem afterTakeIndex_warranted {user : User} {ground : Ground} (old : Option Text)
    (ht : Entitled isBlank checkpw users h user.id ground) :
    (afterTakeIndex isBlank user ground old).Warranted isBlank checkpw hashpw users h request := by
  unfold afterTakeIndex
  split
  · exact ht
  · split <;> exact ht

theorem inv_resume (hi : Inv isBlank checkpw hashpw users s)
    (hstage : (s.workers w).stage = .handling request task)
    (hstep : resume isBlank s w request a task = some t) :
    Inv isBlank checkpw hashpw users t := by
  have hj := job_of_stage hi hstage
  have htask := hj.task request task rfl
  unfold resume at hstep
  split at hstep
  · -- `findUser`
    rename_i phone code time
    split at hstep
    · cases hstep
      exact inv_job hi (job_task hj htask)
    · rename_i user hfind
      cases hstep
      obtain ⟨hmem, hphone⟩ := findByPhone_phone hfind
      refine inv_job hi (job_task hj (entitled_code (p := user.password) ?_ htask))
      rw [← hi.recorded.rows, findById_eq_some.mpr ⟨hmem, rfl⟩, Option.map_some, credentialsOf,
        hphone]
  · -- `createUser`
    split at hstep
    · cases hstep
    · rename_i hfree
      simp only at hstep
      split at hstep
      · cases hstep
        exact inv_job hi (job_completing hj)
      · rename_i table' hinsert
        cases hstep
        exact inv_createUser hi hj htask hfree hinsert
  · rename_i user ground
    cases hstep
    exact inv_within hi rfl (Login.within_getAndDelete user.id s.redis)
      (job_task hj (afterTakeIndex_warranted _ htask))
  · rename_i user ground oldToken
    cases hstep
    exact inv_within hi rfl (Login.within_delete oldToken s.redis) (job_task hj htask)
  · split at hstep
    · cases hstep
    · rename_i hfresh
      cases hstep
      exact inv_setIndex hi hj fun hmem => hfresh (.inl hmem)
  · rename_i userInfo user newToken
    cases hstep
    exact inv_putAll hi htask (job_task hj trivial)
  · rename_i newToken
    cases hstep
    exact inv_within hi rfl (Login.within_expire newToken s.redis) (job_completing hj)
  · cases hstep
    exact inv_putAll hi htask (job_task hj trivial)
  · cases hstep
    exact ⟨recorded_setProfile hi.recorded, (inv_job hi (job_completing hj)).jobs⟩
  · cases hstep
    exact inv_event hi htask (recorded_passwordSet hi.recorded htask)
      (job_cons htask (job_completing hj))
  · cases hstep

/-! ## Steps and runs -/

omit [DecidableEq Worker] in
theorem inv_elapse (hi : Inv isBlank checkpw hashpw users s) (seconds : ℕ) :
    Inv isBlank checkpw hashpw users { s with
      redis := s.redis.elapse (s.redis.now + seconds)
      codes := s.codes.elapse (s.redis.now + seconds) } where
  recorded :=
    { hi.recorded with
      hash := fun token e he => hi.recorded.hash token e (Expiring.eq_of_left he)
      codes := by
        intro phone e he
        obtain ⟨hold, halive⟩ := Expiring.left_eq_some.mp he
        obtain ⟨sent, hlast, hdeadline, hsent, -⟩ := hi.recorded.codes phone e hold
        refine ⟨sent, hlast, hdeadline, ?_, ?_⟩
        · exact hsent.trans (Int.le_add_of_nonneg_right (Int.natCast_nonneg seconds))
        · rw [Expiring.alive, hdeadline] at halive
          exact of_decide_eq_true halive }
  jobs := hi.jobs

theorem inv_stepWorker (hi : Inv isBlank checkpw hashpw users s) (ha : RefreshReturns s a)
    (hstep : stepWorker isBlank trim checkpw hashpw s w a = some t) :
    Inv isBlank checkpw hashpw users t := by
  unfold stepWorker at hstep
  split at hstep
  · rename_i w' request hstage
    cases hstep
    have hj := job_of_stage hi hstage
    have hnone := holder_eq_none hj rfl
    rw [State.goTo, show (s.workers w).holder = none from hnone]
    exact inv_job hi (job_nobody trivial)
  · rename_i w' request task hstage
    cases hstep
    exact inv_job hi (job_completing (job_of_stage hi hstage))
  · cases hstep
    exact inv_job hi (job_nobody trivial)
  · rename_i hstage
    exact inv_handle hi hstage hstep
  · rename_i hstage
    exact inv_resume hi hstage hstep
  · exact inv_intercept hi rfl ha hstep

theorem inv_step :
    Preserves (step isBlank trim checkpw hashpw : State Worker → Action Worker → _) RefreshReturns
      (Inv isBlank checkpw hashpw users) := by
  intro s a t ha hi hstep
  unfold step at hstep
  split at hstep
  · rename_i seconds
    cases hstep
    exact inv_elapse hi seconds
  · obtain ⟨w, -, hstep⟩ := Option.bind_eq_some_iff.mp hstep
    exact inv_stepWorker hi ha hstep

omit [DecidableEq Worker] in
theorem inv_start (users : UserTable) (now : Time) :
    Inv isBlank checkpw hashpw users (.start users now : State Worker) where
  recorded :=
    { hash := fun token e he => by cases he
      codes := fun phone e he => by cases he
      rows := fun u => rfl
      drawn := fun token u g hmem => by cases hmem
      justified := trivial }
  jobs w := job_nobody trivial

/-- **A handler runs as the user its own token was handed out for.** In every run in which no
`expire` of the interceptor throws: a handler of a path that needs a login has a user; the user of
any handler is the one whose login was handed the token of this request; each login, registration
and password was warranted; and the phones and passwords in `tb_user` are those of the history. -/
theorem handler_authenticated {now : Time} {as : List (Action Worker)}
    (hreturns : Along (step isBlank trim checkpw hashpw) RefreshReturns
      (.start users now : State Worker) as)
    (hr : run (step isBlank trim checkpw hashpw) (.start users now : State Worker) as = some t) :
    (∀ w request task, (t.workers w).stage = .handling request task →
      (isExcluded request.path = true ∨ (t.workers w).holder.isSome = true) ∧
        ∀ user, (t.workers w).holder = some user → Session t.history request.token user.id) ∧
      Justified (Warranted isBlank checkpw hashpw users) t.history ∧
      ∀ u, (findById t.users u).map credentialsOf = credentials users t.history u := by
  have hi : Inv isBlank checkpw hashpw users t :=
    run_invariant inv_step hreturns (inv_start users now) hr
  refine ⟨fun w request task hstage => ?_, hi.recorded.justified, hi.recorded.rows⟩
  have hj := job_of_stage hi hstage
  refine ⟨hj.admitted request task rfl, fun user huser => ?_⟩
  obtain ⟨request', hrequest, hsession⟩ := hj.holder user huser
  cases hrequest
  exact hsession

/-- A code is sent, its login registers an account, and the token opens the profile. -/
def firstLogin : List (Action Bool) :=
  [.arrive true ⟨codePath, none⟩, .readHash true, .checkLogin true,
    .sendCode true "13686869696".toList "123456".toList, .complete true,
    .arrive false ⟨loginPath, none⟩, .readHash false, .checkLogin false,
    .login false ⟨some "13686869696".toList, some "123456".toList, none⟩, .findUser false,
    .createUser false 7 [], .takeIndex false, .setIndex false "t".toList, .putUser false none,
    .expireNew false, .complete false,
    .arrive true ⟨profilePath, some "t".toList⟩, .readHash true, .refresh true .returns,
    .checkLogin true]

theorem handler_authenticated_first_login :
    ∃ t : State Bool,
      run (step List.isEmpty id (fun raw encoded => some (raw == encoded)) (fun raw _ => raw))
        (.start Table.empty 0) firstLogin = some t ∧
      (t.workers true).stage = .handling ⟨profilePath, some "t".toList⟩ .start ∧
      Session t.history (some "t".toList) 7 := by
  have hreturns : Along (step List.isEmpty id (fun raw encoded => some (raw == encoded))
      (fun raw _ => raw)) RefreshReturns (.start Table.empty 0 : State Bool) firstLogin :=
    along_of_forall (by simp [firstLogin, RefreshReturns]) _
  refine ⟨_, rfl, rfl, ?_⟩
  exact ((handler_authenticated hreturns rfl).1 true _ _ rfl).2 _ rfl

end Hmdp.Web
