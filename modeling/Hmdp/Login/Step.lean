import Hmdp.Lib.Machine
import Hmdp.Model.Login

/-!
# Clients that log in, work and log out

Any number of threads, each in one request: a login, or a request that passes the interceptor and
may then update the profile. One step is one Redis command; a logout is one command, and keys expire
as time passes. Tokens are drawn fresh and are not blank.

* `Within`: no step but the first write of a login adds a key.
* `Inv`: the token of a login that has not written its hash yet is unknown to everybody else, and
  a request has read the hash of its token once.
-/

namespace Hmdp.Login

open Hmdp.Lib Hmdp.Model

variable {Thread : Type} [DecidableEq Thread]

/-- The command a thread is about to send. -/
inductive Phase where
  | idle
  /-- `createLoginToken`: `delete(LOGIN_USER_KEY + oldToken)` -/
  | deleteOld (user : User) (oldToken : Text)
  /-- `set(userTokenKey, newToken, …)` -/
  | setIndex (user : User)
  /-- `putAll(tokenKey, userMap)` -/
  | putUser (user : User) (newToken : Text)
  /-- `expire(tokenKey, …)` -/
  | expireNew (user : User) (newToken : Text)
  /-- the interceptor has read the user, its `expire` is next -/
  | refresh (token : Text) (user : LoginUser)
  /-- in the handler -/
  | authenticated (token : Text) (user : LoginUser)
  /-- `updateProfile`: `putAll(LOGIN_USER_KEY + token, userMap)` -/
  | saveProfile (token : Text) (user : LoginUser)
  deriving DecidableEq

/-- The user whose login is in progress. -/
def Phase.login : Phase → Option UserId
  | .deleteOld user _ => some user.id
  | .setIndex user => some user.id
  | .putUser user _ => some user.id
  | .expireNew user _ => some user.id
  | _ => none

/-- The token of an authenticated request and the user it has read. -/
def Phase.request : Phase → Option (Text × LoginUser)
  | .refresh token user => some (token, user)
  | .authenticated token user => some (token, user)
  | .saveProfile token user => some (token, user)
  | _ => none

/-- The token a login has drawn and not yet written. -/
def Phase.unwritten : Phase → Option Text
  | .putUser _ newToken => some newToken
  | _ => none

/-- The keys of the login and the threads at work on them. -/
structure State (Thread : Type) where
  redis : LoginRedis
  threads : Thread → Phase
  /-- the tokens drawn so far -/
  drawn : List Text
  /-- ghost: the hash of the token has existed and then was deleted or expired -/
  revoked : Text → Bool

/-- The steps: each command of a login, a request, a logout or a profile update, and time. -/
inductive Action (Thread : Type) where
  /-- `getAndDelete` of a login -/
  | login (th : Thread) (user : User)
  | deleteOld (th : Thread)
  | setIndex (th : Thread) (newToken : Text)
  | putUser (th : Thread) (userInfo : Option UserInfo)
  | expireNew (th : Thread)
  /-- a request arrives, the interceptor reads the hash of its token -/
  | request (th : Thread) (token : Text)
  | refresh (th : Thread)
  /-- `updateProfile` up to its write to the hash -/
  | updateProfile (th : Thread) (profile : Option UserProfileUpdateDTO) (today : Time)
    (userExists : Bool)
  | saveProfile (th : Thread)
  /-- any other request returns -/
  | finish (th : Thread)
  | logout (token : Text)
  | elapse (seconds : ℕ)

/-- The state after a command; a hash that is gone is noted. -/
def State.setRedis (s : State Thread) (redis : LoginRedis) : State Thread :=
  { s with
    redis
    revoked := fun token => s.revoked token ||
      ((s.redis.hash token).isSome && (redis.hash token).isNone) }

/-- A thread goes on to the next phase. -/
def State.setPhase (s : State Thread) (th : Thread) (phase : Phase) : State Thread :=
  { s with threads := Function.update s.threads th phase }

/-- A thread goes on and leaves the given keys. -/
def State.moveTo (s : State Thread) (th : Thread) (phase : Phase) (redis : LoginRedis) :
    State Thread :=
  (s.setRedis redis).setPhase th phase

/-- `createLoginToken` after its `getAndDelete`. -/
def afterGetAndDelete (isBlank : Text → Bool) (user : User) : Option Text → Phase
  | none => .setIndex user
  | some oldToken => if isBlank oldToken then .setIndex user else .deleteOld user oldToken

/-- One step; `none` where the thread is not where the action needs it. -/
def step (isBlank : Text → Bool) (trim : Text → Text) (s : State Thread) :
    Action Thread → Option (State Thread)
  | .login th user =>
    match s.threads th with
    | .idle =>
      let r := s.redis.getAndDelete user.id
      some (s.moveTo th (afterGetAndDelete isBlank user r.1) r.2)
    | _ => none
  | .deleteOld th =>
    match s.threads th with
    | .deleteOld user oldToken => some (s.moveTo th (.setIndex user) (s.redis.delete oldToken))
    | _ => none
  | .setIndex th newToken =>
    match s.threads th with
    | .setIndex user =>
      if newToken ∈ s.drawn ∨ isBlank newToken = true then none
      else some { s.moveTo th (.putUser user newToken) (s.redis.setIndex user.id newToken) with
        drawn := newToken :: s.drawn }
    | _ => none
  | .putUser th userInfo =>
    match s.threads th with
    | .putUser user newToken =>
      some (s.moveTo th (.expireNew user newToken)
        (s.redis.putAll newToken (user.toDTO userInfo)))
    | _ => none
  | .expireNew th =>
    match s.threads th with
    | .expireNew _ newToken => some (s.moveTo th .idle (s.redis.expire newToken))
    | _ => none
  | .request th token =>
    match s.threads th with
    | .idle =>
      if isBlank token then some s
      else
        match s.redis.hash token with
        | none => some s
        | some e => some (s.moveTo th (.refresh token e.value) s.redis)
    | _ => none
  | .refresh th =>
    match s.threads th with
    | .refresh token user => some (s.moveTo th (.authenticated token user) (s.redis.expire token))
    | _ => none
  | .updateProfile th profile today userExists =>
    match s.threads th with
    | .authenticated token user =>
      match updatedUser isBlank trim today userExists profile user with
      | .error _ => some (s.moveTo th .idle s.redis)
      | .ok updated => some (s.moveTo th (.saveProfile token updated) s.redis)
    | _ => none
  | .saveProfile th =>
    match s.threads th with
    | .saveProfile token user => some (s.moveTo th .idle (s.redis.putAll token user))
    | _ => none
  | .finish th =>
    match s.threads th with
    | .authenticated _ _ => some (s.moveTo th .idle s.redis)
    | _ => none
  | .logout token =>
    if isBlank token then some s else some (s.setRedis (s.redis.delete token))
  | .elapse seconds => some (s.setRedis (s.redis.elapse (s.redis.now + seconds)))

/-- Nobody is logged in. -/
def State.start (now : Time) : State Thread := ⟨.empty now, fun _ => .idle, [], fun _ => false⟩

/-- `updateProfile` writes a hash that exists. -/
def UpdatesLive (s : State Thread) : Action Thread → Prop
  | .saveProfile th => ∀ token user, s.threads th = .saveProfile token user →
      (s.redis.hash token).isSome = true
  | _ => True

/-! ## What a command does to the hashes -/

/-- No hash is added, and none changes its user. -/
def Within (r r' : LoginRedis) : Prop :=
  ∀ token e', r'.hash token = some e' → ∃ e, r.hash token = some e ∧ e.value.id = e'.value.id

variable {r r' : LoginRedis} {token : Text} {u : UserId}

theorem Within.refl (r : LoginRedis) : Within r r := fun _ e h => ⟨e, h, rfl⟩

theorem within_getAndDelete (u : UserId) (r : LoginRedis) : Within r (r.getAndDelete u).2 :=
  fun _ e h => ⟨e, h, rfl⟩

theorem within_setIndex (u : UserId) (token : Text) (r : LoginRedis) :
    Within r (r.setIndex u token) :=
  fun _ e h => ⟨e, h, rfl⟩

theorem hash_delete {other : Text} {e : Expiring LoginUser} :
    (r.delete token).hash other = some e ↔ other ≠ token ∧ r.hash other = some e := by
  by_cases h : other = token
  · subst h
    simp [LoginRedis.delete]
  · simp [LoginRedis.delete, h]

theorem within_delete (token : Text) (r : LoginRedis) : Within r (r.delete token) :=
  fun _ e h => ⟨e, (hash_delete.mp h).2, rfl⟩

theorem within_expire (token : Text) (r : LoginRedis) : Within r (r.expire token) := by
  intro other e' h
  by_cases hother : other = token
  · subst hother
    simp only [LoginRedis.expire, Function.update_self] at h
    obtain ⟨e, he, rfl⟩ := Expiring.expire_eq_some.mp h
    exact ⟨e, he, rfl⟩
  · simp only [LoginRedis.expire, Function.update_of_ne hother] at h
    exact ⟨e', h, rfl⟩

theorem within_elapse (now : Time) (r : LoginRedis) : Within r (r.elapse now) :=
  fun _ e h => ⟨e, Expiring.eq_of_left h, rfl⟩

/-- A hash is added, or gets other fields. -/
theorem hash_putAll {user : LoginUser} {other : Text} {e' : Expiring LoginUser}
    (h : (r.putAll token user).hash other = some e') :
    (other = token ∧ e'.value.id = user.id) ∨ (other ≠ token ∧ r.hash other = some e') := by
  by_cases hother : other = token
  · subst hother
    simp only [LoginRedis.putAll, Function.update_self, Option.some.injEq] at h
    subst h
    exact .inl ⟨rfl, LoginUser.putAll_id _ _⟩
  · simp only [LoginRedis.putAll, Function.update_of_ne hother] at h
    exact .inr ⟨hother, h⟩

theorem within_putAll {user : LoginUser} {e : Expiring LoginUser} (he : r.hash token = some e)
    (hid : e.value.id = user.id) : Within r (r.putAll token user) := by
  intro other e' h
  rcases hash_putAll h with ⟨rfl, huser⟩ | ⟨-, hold⟩
  · exact ⟨e, he, hid.trans huser.symm⟩
  · exact ⟨e', hold, rfl⟩

/-! ## The invariant -/

/-- The hash of the token exists or has existed. -/
def State.Written (s : State Thread) (token : Text) : Prop :=
  (s.redis.hash token).isSome = true ∨ s.revoked token = true

/-- **The invariant**: a token is written once, by the login that has drawn it. -/
structure Inv (isBlank : Text → Bool) (s : State Thread) : Prop where
  known : ∀ token, s.Written token → token ∈ s.drawn
  fresh : ∀ th token, (s.threads th).unwritten = some token →
    token ∈ s.drawn ∧ ¬s.Written token
  distinct : ∀ th th' token, (s.threads th).unwritten = some token →
    (s.threads th').unwritten = some token → th = th'
  requests : ∀ th token user, (s.threads th).request = some (token, user) →
    s.Written token ∧ ∀ e, s.redis.hash token = some e → e.value.id = user.id
  index : ∀ u e, s.redis.index u = some e → isBlank e.value = false

variable {isBlank : Text → Bool} {trim : Text → Text} {s t : State Thread} {a : Action Thread}
  {th : Thread} {phase : Phase}

theorem threads_setPhase (s : State Thread) (th : Thread) (phase : Phase) :
    (s.setPhase th phase).threads th = phase := Function.update_self ..

theorem threads_setPhase_of_ne {th' : Thread} (h : th' ≠ th) :
    (s.setPhase th phase).threads th' = s.threads th' := Function.update_of_ne h ..

omit [DecidableEq Thread] in
theorem written_setRedis (h : s.Written token) : (s.setRedis r).Written token := by
  unfold State.Written State.setRedis
  rcases h with hsome | hrevoked
  · simp only [hsome, Bool.true_and]
    cases r.hash token <;> simp
  · simp [hrevoked]

omit [DecidableEq Thread] in
theorem written_of_setRedis (hw : Within s.redis r) (h : (s.setRedis r).Written token) :
    s.Written token := by
  rcases h with hsome | hrevoked
  · obtain ⟨e', he'⟩ := Option.isSome_iff_exists.mp hsome
    obtain ⟨e, he, -⟩ := hw token e' he'
    exact .inl (by rw [he]; rfl)
  · simp only [State.setRedis, Bool.or_eq_true, Bool.and_eq_true] at hrevoked
    rcases hrevoked with hold | ⟨hsome, -⟩
    · exact .inr hold
    · exact .inl hsome

omit [DecidableEq Thread] in
/-- A command that adds no hash. -/
theorem inv_setRedis (hi : Inv isBlank s) (hw : Within s.redis r)
    (hindex : ∀ u e, r.index u = some e → isBlank e.value = false) :
    Inv isBlank (s.setRedis r) where
  known token h := hi.known token (written_of_setRedis hw h)
  fresh th token h := by
    obtain ⟨hdrawn, hnot⟩ := hi.fresh th token h
    exact ⟨hdrawn, fun hwritten => hnot (written_of_setRedis hw hwritten)⟩
  distinct := hi.distinct
  requests th token user h := by
    obtain ⟨hwritten, hid⟩ := hi.requests th token user h
    refine ⟨written_setRedis hwritten, fun e' he' => ?_⟩
    obtain ⟨e, he, heq⟩ := hw token e' he'
    exact heq.symm.trans (hid e he)
  index := hindex

/-- A thread goes on to a phase in which it has no unwritten token. -/
theorem inv_setPhase (hi : Inv isBlank s) (hunwritten : phase.unwritten = none)
    (hrequest : ∀ token user, phase.request = some (token, user) →
      s.Written token ∧ ∀ e, s.redis.hash token = some e → e.value.id = user.id) :
    Inv isBlank (s.setPhase th phase) where
  known := hi.known
  fresh th' token h := by
    by_cases hth : th' = th
    · subst hth
      rw [threads_setPhase, hunwritten] at h
      cases h
    · rw [threads_setPhase_of_ne hth] at h
      exact hi.fresh th' token h
  distinct th₁ th₂ token h₁ h₂ := by
    have hold : ∀ th', ((s.setPhase th phase).threads th').unwritten = some token →
        (s.threads th').unwritten = some token := by
      intro th' h
      by_cases hth : th' = th
      · subst hth
        rw [threads_setPhase, hunwritten] at h
        cases h
      · rwa [threads_setPhase_of_ne hth] at h
    exact hi.distinct th₁ th₂ token (hold th₁ h₁) (hold th₂ h₂)
  requests th' token user h := by
    by_cases hth : th' = th
    · subst hth
      rw [threads_setPhase] at h
      exact hrequest token user h
    · rw [threads_setPhase_of_ne hth] at h
      exact hi.requests th' token user h
  index := hi.index

/-- A command of a thread that adds no hash. -/
theorem inv_moveTo (hi : Inv isBlank s) (hw : Within s.redis r)
    (hindex : ∀ u e, r.index u = some e → isBlank e.value = false)
    (hunwritten : phase.unwritten = none)
    (hrequest : ∀ token user, phase.request = some (token, user) →
      s.Written token ∧ ∀ e, s.redis.hash token = some e → e.value.id = user.id) :
    Inv isBlank (s.moveTo th phase r) := by
  refine inv_setPhase (inv_setRedis hi hw hindex) hunwritten fun token user h => ?_
  obtain ⟨hwritten, hid⟩ := hrequest token user h
  refine ⟨written_setRedis hwritten, fun e' he' => ?_⟩
  obtain ⟨e, he, heq⟩ := hw token e' he'
  exact heq.symm.trans (hid e he)

omit [DecidableEq Thread] in
theorem index_update (hi : Inv isBlank s) (v : UserId) (value : Option (Expiring Text))
    (hvalue : ∀ e, value = some e → isBlank e.value = false) :
    ∀ u e, Function.update s.redis.index v value u = some e → isBlank e.value = false := by
  intro u e h
  by_cases hu : u = v
  · subst hu
    rw [Function.update_self] at h
    exact hvalue e h
  · rw [Function.update_of_ne hu] at h
    exact hi.index u e h

theorem inv_draw (hi : Inv isBlank s) {user : User} {newToken : Text}
    (hfresh : newToken ∉ s.drawn) (hblank : isBlank newToken = false) :
    Inv isBlank { s.moveTo th (.putUser user newToken) (s.redis.setIndex user.id newToken) with
      drawn := newToken :: s.drawn } := by
  have hw := within_setIndex user.id newToken s.redis
  have hunwritten : ∀ th', ((s.moveTo th (.putUser user newToken)
      (s.redis.setIndex user.id newToken)).threads th').unwritten =
        if th' = th then some newToken else (s.threads th').unwritten := by
    intro th'
    by_cases hth : th' = th
    · subst hth
      rw [if_pos rfl, State.moveTo, threads_setPhase]
      rfl
    · rw [if_neg hth, State.moveTo, threads_setPhase_of_ne hth]
      rfl
  refine ⟨fun token h => ?_, fun th' token h => ?_, fun th₁ th₂ token h₁ h₂ => ?_,
    fun th' token user' h => ?_, index_update hi _ _ ?_⟩
  · exact List.mem_cons_of_mem newToken (hi.known token (written_of_setRedis hw h))
  · rw [hunwritten] at h
    split at h
    · cases h
      exact ⟨List.mem_cons_self, fun hw' => hfresh (hi.known _ (written_of_setRedis hw hw'))⟩
    · obtain ⟨hdrawn, hnot⟩ := hi.fresh th' token h
      exact ⟨List.mem_cons_of_mem newToken hdrawn, fun hw' => hnot (written_of_setRedis hw hw')⟩
  · rw [hunwritten] at h₁ h₂
    split at h₁ <;> split at h₂
    · simp [*]
    · cases h₁
      exact absurd (hi.fresh th₂ _ h₂).1 hfresh
    · cases h₂
      exact absurd (hi.fresh th₁ _ h₁).1 hfresh
    · exact hi.distinct th₁ th₂ token h₁ h₂
  · by_cases hth : th' = th
    · subst hth
      have hself : ((s.setRedis (s.redis.setIndex user.id newToken)).setPhase th'
          (.putUser user newToken)).threads th' = .putUser user newToken := threads_setPhase ..
      simp only [State.moveTo, hself] at h
      cases h
    · have hother : ((s.setRedis (s.redis.setIndex user.id newToken)).setPhase th
          (.putUser user newToken)).threads th' = s.threads th' := threads_setPhase_of_ne hth
      simp only [State.moveTo, hother] at h
      obtain ⟨hwritten, hid⟩ := hi.requests th' token user' h
      exact ⟨written_setRedis hwritten, hid⟩
  · intro e he
    cases he
    exact hblank

/-- A login writes the hash of its token. -/
theorem inv_putUser (hi : Inv isBlank s) {user : User} {newToken : Text}
    (hphase : s.threads th = .putUser user newToken) (dto : LoginUser) :
    Inv isBlank (s.moveTo th (.expireNew user newToken) (s.redis.putAll newToken dto)) := by
  obtain ⟨hdrawn, hnot⟩ := hi.fresh th newToken (by rw [hphase]; rfl)
  have hhash : ∀ token, token ≠ newToken →
      (s.redis.putAll newToken dto).hash token = s.redis.hash token :=
    fun token h => Function.update_of_ne h ..
  have hwritten : ∀ token, (s.setRedis (s.redis.putAll newToken dto)).Written token →
      token = newToken ∨ s.Written token := by
    intro token h
    by_cases heq : token = newToken
    · exact .inl heq
    · refine .inr ?_
      unfold State.Written State.setRedis at h
      rw [hhash token heq] at h
      simp only [Bool.or_eq_true, Bool.and_eq_true] at h
      rcases h with hsome | hold | ⟨hsome, -⟩
      · exact .inl hsome
      · exact .inr hold
      · exact .inl hsome
  have hthreads : ∀ th', th' ≠ th →
      (s.moveTo th (.expireNew user newToken) (s.redis.putAll newToken dto)).threads th' =
        s.threads th' := fun th' h => threads_setPhase_of_ne h
  have hself : (s.moveTo th (.expireNew user newToken) (s.redis.putAll newToken dto)).threads th =
      .expireNew user newToken := threads_setPhase ..
  refine ⟨fun token h => ?_, fun th' token h => ?_, fun th₁ th₂ token h₁ h₂ => ?_,
    fun th' token user' h => ?_, hi.index⟩
  · rcases hwritten token h with rfl | hold
    · exact hdrawn
    · exact hi.known token hold
  · by_cases hth : th' = th
    · subst hth
      rw [hself] at h
      cases h
    · rw [hthreads th' hth] at h
      obtain ⟨hdrawn', hnot'⟩ := hi.fresh th' token h
      refine ⟨hdrawn', fun hw => ?_⟩
      rcases hwritten token hw with rfl | hold
      · exact hth (hi.distinct th' th token h (by rw [hphase]; rfl))
      · exact hnot' hold
  · have hne : ∀ th', ((s.moveTo th (.expireNew user newToken)
        (s.redis.putAll newToken dto)).threads th').unwritten = some token → th' ≠ th := by
      rintro _ h rfl
      rw [hself] at h
      cases h
    rw [hthreads th₁ (hne th₁ h₁)] at h₁
    rw [hthreads th₂ (hne th₂ h₂)] at h₂
    exact hi.distinct th₁ th₂ token h₁ h₂
  · by_cases hth : th' = th
    · subst hth
      rw [hself] at h
      cases h
    · rw [hthreads th' hth] at h
      obtain ⟨hold, hid⟩ := hi.requests th' token user' h
      have hne : token ≠ newToken := by
        rintro rfl
        exact hnot hold
      refine ⟨written_setRedis hold, fun e he => hid e ?_⟩
      rw [← hhash token hne]
      exact he

/-! ## Steps -/

omit [DecidableEq Thread] in
/-- The write of `updateProfile` to a hash that exists changes nobody's user. -/
theorem within_saveProfile (hi : Inv isBlank s) {user : LoginUser}
    (hphase : s.threads th = .saveProfile token user)
    (hlive : (s.redis.hash token).isSome = true) :
    Within s.redis (s.redis.putAll token user) := by
  obtain ⟨e, he⟩ := Option.isSome_iff_exists.mp hlive
  have hid := (hi.requests th token user (by rw [hphase]; rfl)).2 e he
  exact within_putAll he hid

omit [DecidableEq Thread] in
theorem index_elapse (hi : Inv isBlank s) (now : Time) :
    ∀ u e, (s.redis.elapse now).index u = some e → isBlank e.value = false :=
  fun u e h => hi.index u e (Expiring.eq_of_left h)

omit [DecidableEq Thread] in
/-- What a thread must know to go on to a phase without a request. -/
theorem noRequest (h : phase.request = none) (token : Text) (user : LoginUser)
    (hsome : phase.request = some (token, user)) :
    s.Written token ∧ ∀ e, s.redis.hash token = some e → e.value.id = user.id := by
  rw [h] at hsome
  cases hsome

/-- **Every step whose profile update writes a hash that exists keeps the invariant.** -/
theorem inv_step (hi : Inv isBlank s) (hlive : UpdatesLive s a)
    (hstep : step isBlank trim s a = some t) : Inv isBlank t := by
  cases a with
  | login th user =>
    simp only [step] at hstep
    split at hstep <;> cases hstep
    have hindex := index_update hi user.id none fun e h => by cases h
    have hphase : (afterGetAndDelete isBlank user
        (s.redis.getAndDelete user.id).1).unwritten = none ∧
        (afterGetAndDelete isBlank user (s.redis.getAndDelete user.id).1).request = none := by
      unfold afterGetAndDelete
      split
      · exact ⟨rfl, rfl⟩
      · split <;> exact ⟨rfl, rfl⟩
    exact inv_moveTo hi (within_getAndDelete user.id s.redis) hindex hphase.1 (noRequest hphase.2)
  | deleteOld th =>
    simp only [step] at hstep
    split at hstep <;> cases hstep
    exact inv_moveTo hi (within_delete _ s.redis) hi.index rfl (noRequest rfl)
  | setIndex th newToken =>
    simp only [step] at hstep
    split at hstep
    · split at hstep
      · cases hstep
      · rename_i hfresh
        cases hstep
        obtain ⟨hdrawn, hblank⟩ := not_or.mp hfresh
        exact inv_draw hi hdrawn (Bool.eq_false_iff.mpr hblank)
    · cases hstep
  | putUser th userInfo =>
    simp only [step] at hstep
    split at hstep
    · rename_i user newToken hphase
      cases hstep
      exact inv_putUser hi hphase _
    · cases hstep
  | expireNew th =>
    simp only [step] at hstep
    split at hstep <;> cases hstep
    exact inv_moveTo hi (within_expire _ s.redis) hi.index rfl (noRequest rfl)
  | request th token =>
    simp only [step] at hstep
    split at hstep
    · split at hstep
      · cases hstep
        exact hi
      · split at hstep
        · cases hstep
          exact hi
        · rename_i e he
          cases hstep
          refine inv_moveTo hi (Within.refl s.redis) hi.index rfl fun token' user h => ?_
          cases h
          refine ⟨.inl (by rw [he]; rfl), fun e' he' => ?_⟩
          cases he.symm.trans he'
          rfl
    · cases hstep
  | refresh th =>
    simp only [step] at hstep
    split at hstep
    · rename_i token user hphase
      cases hstep
      refine inv_moveTo hi (within_expire token s.redis) hi.index rfl fun token' user' h => ?_
      cases h
      exact hi.requests th token user (by rw [hphase]; rfl)
    · cases hstep
  | updateProfile th profile today userExists =>
    simp only [step] at hstep
    split at hstep
    · rename_i token user hphase
      split at hstep
      · cases hstep
        exact inv_moveTo hi (Within.refl s.redis) hi.index rfl (noRequest rfl)
      · rename_i updated hupdated
        cases hstep
        refine inv_moveTo hi (Within.refl s.redis) hi.index rfl fun token' user' h => ?_
        cases h
        obtain ⟨hwritten, hid⟩ := hi.requests th token user (by rw [hphase]; rfl)
        exact ⟨hwritten, fun e he => (hid e he).trans (updatedUser_id hupdated).symm⟩
    · cases hstep
  | saveProfile th =>
    simp only [step] at hstep
    split at hstep
    · rename_i token user hphase
      cases hstep
      have hw := within_saveProfile hi hphase (hlive token user hphase)
      exact inv_moveTo hi hw hi.index rfl (noRequest rfl)
    · cases hstep
  | finish th =>
    simp only [step] at hstep
    split at hstep <;> cases hstep
    exact inv_moveTo hi (Within.refl s.redis) hi.index rfl (noRequest rfl)
  | logout token =>
    simp only [step] at hstep
    split at hstep <;> cases hstep
    · exact hi
    · exact inv_setRedis hi (within_delete token s.redis) hi.index
  | elapse seconds =>
    cases hstep
    exact inv_setRedis hi (within_elapse _ s.redis) (index_elapse hi _)

/-- What a step does to the hashes: it adds none, or it is the first write of a login. -/
inductive Effect (s t : State Thread) : Prop
  | within (kept : Within s.redis t.redis) (noted : t.revoked = (s.setRedis t.redis).revoked)
  | written (th : Thread) (user : User) (newToken : Text) (userInfo : Option UserInfo)
    (phase : s.threads th = .putUser user newToken)
    (added : t.redis = s.redis.putAll newToken (user.toDTO userInfo))
    (noted : t.revoked = (s.setRedis t.redis).revoked)

omit [DecidableEq Thread] in
theorem Effect.same (s : State Thread) : Effect s s := by
  refine .within (Within.refl s.redis) (funext fun token => ?_)
  simp only [State.setRedis]
  cases s.redis.hash token <;> simp

theorem step_effect (hi : Inv isBlank s) (hlive : UpdatesLive s a)
    (hstep : step isBlank trim s a = some t) : Effect s t := by
  cases a with
  | login th user =>
    simp only [step] at hstep
    split at hstep <;> cases hstep
    exact .within (within_getAndDelete user.id s.redis) rfl
  | deleteOld th =>
    simp only [step] at hstep
    split at hstep <;> cases hstep
    exact .within (within_delete _ s.redis) rfl
  | setIndex th newToken =>
    simp only [step] at hstep
    split at hstep
    · split at hstep <;> cases hstep
      exact .within (within_setIndex _ newToken s.redis) rfl
    · cases hstep
  | putUser th userInfo =>
    simp only [step] at hstep
    split at hstep
    · rename_i user newToken hphase
      cases hstep
      exact .written th user newToken userInfo hphase rfl rfl
    · cases hstep
  | expireNew th =>
    simp only [step] at hstep
    split at hstep <;> cases hstep
    exact .within (within_expire _ s.redis) rfl
  | request th token =>
    simp only [step] at hstep
    split at hstep
    · split at hstep
      · cases hstep
        exact .same s
      · split at hstep <;> cases hstep
        · exact .same s
        · exact .within (Within.refl s.redis) rfl
    · cases hstep
  | refresh th =>
    simp only [step] at hstep
    split at hstep <;> cases hstep
    exact .within (within_expire _ s.redis) rfl
  | updateProfile th profile today userExists =>
    simp only [step] at hstep
    split at hstep
    · split at hstep <;> cases hstep <;> exact .within (Within.refl s.redis) rfl
    · cases hstep
  | saveProfile th =>
    simp only [step] at hstep
    split at hstep
    · rename_i token user hphase
      cases hstep
      exact .within (within_saveProfile hi hphase (hlive token user hphase)) rfl
    · cases hstep
  | finish th =>
    simp only [step] at hstep
    split at hstep <;> cases hstep
    exact .within (Within.refl s.redis) rfl
  | logout token =>
    simp only [step] at hstep
    split at hstep <;> cases hstep
    · exact .same s
    · exact .within (within_delete token s.redis) rfl
  | elapse seconds =>
    cases hstep
    exact .within (within_elapse _ s.redis) rfl

omit [DecidableEq Thread] in
theorem inv_start (isBlank : Text → Bool) (now : Time) :
    Inv isBlank (State.start now : State Thread) where
  known token h := by rcases h with h | h <;> cases h
  fresh th token h := by cases h
  distinct th th' token h h' := by cases h
  requests th token user h := by cases h
  index u e h := by cases h

end Hmdp.Login
