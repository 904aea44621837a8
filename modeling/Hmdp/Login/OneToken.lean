import Hmdp.Login.Step

/-!
# One login token for each user

A login deletes the token it finds in the index key of the user before it draws a new one. The index
expires `LOGIN_USER_TTL` after the login, the token's hash that long after the last request, and two
logins may run at once; so the index need not hold the live token (`oneToken_fails`), and the
token it holds need not be written yet.

* `One`: at most one token of a user is live or about to be.
* `oneToken`: it is kept while no two logins have taken the index, each login finds the user's token
  there, and the token it deletes has been written.
-/

namespace Hmdp.Login

open Hmdp.Lib Hmdp.Model

variable {Thread : Type} [DecidableEq Thread] {isBlank : Text → Bool} {trim : Text → Text}
  {s t : State Thread} {a : Action Thread} {th : Thread} {phase : Phase} {r : LoginRedis}
  {u : UserId} {token : Text}

/-- The hash `login:token:<token>` exists and holds the user. -/
def State.Holds (s : State Thread) (token : Text) (u : UserId) : Prop :=
  ∃ e, s.redis.hash token = some e ∧ e.value.id = u

/-- At most one live token for each user. -/
def State.OneToken (s : State Thread) : Prop :=
  ∀ u token token', s.Holds token u → s.Holds token' u → token = token'

/-- The token is live or a login is about to write it. -/
def State.Pending (s : State Thread) (token : Text) (u : UserId) : Prop :=
  s.Holds token u ∨ ∃ th user, s.threads th = .putUser user token ∧ user.id = u

/-- A login that has taken the index key of its user and not set it yet, with the token it found. -/
def Phase.taken : Phase → Option (UserId × Option Text)
  | .deleteOld user oldToken => some (user.id, some oldToken)
  | .setIndex user => some (user.id, none)
  | _ => none

/-- A login takes the index while no other login has taken it, and the user's token that is live or
about to be written, if there is one, is the one in the index; it deletes an old token that no login
is about to write; and `updateProfile` writes a hash that exists. -/
structure SingleSession (s : State Thread) (a : Action Thread) : Prop where
  free : ∀ th user, a = .login th user → ∀ th' x, (s.threads th').taken ≠ some (user.id, x)
  indexed : ∀ th user, a = .login th user → ∀ token, s.Pending token user.id →
    (s.redis.index user.id).map Expiring.value = some token
  written : ∀ th user oldToken, a = .deleteOld th → s.threads th = .deleteOld user oldToken →
    ∀ th' user', s.threads th' ≠ .putUser user' oldToken
  live : UpdatesLive s a

/-- **The invariant**: a user has at most one token that is live or about to be written, and the
login that has taken the index knows it. -/
structure One (s : State Thread) : Prop where
  one : ∀ u token token', s.Pending token u → s.Pending token' u → token = token'
  /-- one login has taken the index at a time -/
  alone : ∀ th th' u x y, (s.threads th).taken = some (u, x) →
    (s.threads th').taken = some (u, y) → th = th'
  /-- and it knows the token of the user -/
  only : ∀ th u found, (s.threads th).taken = some (u, found) →
    ∀ token, s.Pending token u → found = some token

/-! ## Steps -/

omit [DecidableEq Thread] in
theorem holds_of_within (hw : Within s.redis t.redis) (h : t.Holds token u) : s.Holds token u := by
  obtain ⟨e', he', hid'⟩ := h
  obtain ⟨e, he, hid⟩ := hw token e' he'
  exact ⟨e, he, hid.trans hid'⟩

theorem threads_moveTo : (s.moveTo th phase r).threads th = phase := threads_setPhase ..

theorem threads_moveTo_of_ne {th' : Thread} (h : th' ≠ th) :
    (s.moveTo th phase r).threads th' = s.threads th' := threads_setPhase_of_ne h

/-- A command that adds no token. -/
theorem pending_moveTo (hw : Within s.redis r) (hphase : ∀ user, phase ≠ .putUser user token)
    (h : (s.moveTo th phase r).Pending token u) : s.Pending token u := by
  rcases h with hholds | ⟨th', user, hth', hid⟩
  · exact .inl (holds_of_within hw hholds)
  · by_cases hne : th' = th
    · subst hne
      rw [threads_moveTo] at hth'
      exact absurd hth' (hphase user)
    · rw [threads_moveTo_of_ne hne] at hth'
      exact .inr ⟨th', user, hth', hid⟩

/-- A thread moves, and no token of any user is added; if the thread has taken an index
afterwards, it is the only one and knows the token. -/
theorem one_of_pending (h : One s)
    (hpending : ∀ token u, (s.moveTo th phase r).Pending token u → s.Pending token u)
    (htaken : ∀ u found, phase.taken = some (u, found) →
      (∀ th', th' ≠ th → ∀ x, (s.threads th').taken ≠ some (u, x)) ∧
        ∀ token, (s.moveTo th phase r).Pending token u → found = some token) :
    One (s.moveTo th phase r) := by
  refine ⟨fun u token token' h₁ h₂ => ?_, fun th₁ th₂ u x y h₁ h₂ => ?_,
    fun th' u found h' token hholds => ?_⟩
  · exact h.one u token token' (hpending token u h₁) (hpending token' u h₂)
  · by_cases hth₁ : th₁ = th <;> by_cases hth₂ : th₂ = th
    · rw [hth₁, hth₂]
    · subst hth₁
      rw [threads_moveTo] at h₁
      rw [threads_moveTo_of_ne hth₂] at h₂
      exact absurd h₂ ((htaken u x h₁).1 th₂ hth₂ y)
    · subst hth₂
      rw [threads_moveTo] at h₂
      rw [threads_moveTo_of_ne hth₁] at h₁
      exact absurd h₁ ((htaken u y h₂).1 th₁ hth₁ x)
    · rw [threads_moveTo_of_ne hth₁] at h₁
      rw [threads_moveTo_of_ne hth₂] at h₂
      exact h.alone th₁ th₂ u x y h₁ h₂
  · by_cases hth : th' = th
    · subst hth
      rw [threads_moveTo] at h'
      exact (htaken u found h').2 token hholds
    · rw [threads_moveTo_of_ne hth] at h'
      exact h.only th' u found h' token (hpending token u hholds)

/-- The same for a command of a thread that has taken no index afterwards. -/
theorem one_leave (h : One s) (hw : Within s.redis r)
    (hphase : ∀ user token, phase ≠ .putUser user token) (htaken : phase.taken = none) :
    One (s.moveTo th phase r) :=
  one_of_pending h (fun token _ => pending_moveTo hw fun user => hphase user token)
    fun u found hl => by rw [htaken] at hl; cases hl

omit [DecidableEq Thread] in
theorem one_setRedis (h : One s) (hw : Within s.redis r) : One (s.setRedis r) := by
  have hpending : ∀ {token u}, (s.setRedis r).Pending token u → s.Pending token u :=
    fun hp => hp.imp_left (holds_of_within hw)
  exact ⟨fun u token token' h₁ h₂ => h.one u token token' (hpending h₁) (hpending h₂), h.alone,
    fun th u found hl token hp => h.only th u found hl token (hpending hp)⟩

omit [DecidableEq Thread] in
/-- A login that goes on is still the only one that has taken the index. -/
theorem others_free (h : One s) {x : Option Text} (hl : (s.threads th).taken = some (u, x)) :
    ∀ th', th' ≠ th → ∀ y, (s.threads th').taken ≠ some (u, y) :=
  fun _ hne _ hl' => hne (h.alone _ _ u _ _ hl' hl)

/-- `getAndDelete`: the login knows the token of the user. -/
theorem one_login (hi : Inv isBlank s) (h : One s) {user : User}
    (hsingle : SingleSession s (.login th user)) :
    One (s.moveTo th (afterGetAndDelete isBlank user (s.redis.getAndDelete user.id).1)
      (s.redis.getAndDelete user.id).2) := by
  have hfree := hsingle.free th user rfl
  have hindex := hsingle.indexed th user rfl
  have hw := within_getAndDelete user.id s.redis
  have hphase : ∀ user' token, afterGetAndDelete isBlank user
      (s.redis.getAndDelete user.id).1 ≠ .putUser user' token := by
    intro user' token
    unfold afterGetAndDelete
    split
    · simp
    · split <;> simp
  have hpending : ∀ token u, (s.moveTo th (afterGetAndDelete isBlank user
      (s.redis.getAndDelete user.id).1) (s.redis.getAndDelete user.id).2).Pending token u →
        s.Pending token u :=
    fun token u => pending_moveTo hw fun user' => hphase user' token
  refine one_of_pending h hpending fun u found hl => ?_
  have hcases : u = user.id ∧ ∀ token, (s.redis.index user.id).map Expiring.value = some token →
      found = some token := by
    unfold afterGetAndDelete LoginRedis.getAndDelete at hl
    cases hidx : s.redis.index user.id with
    | none =>
      rw [hidx] at hl
      cases hl
      exact ⟨rfl, fun token htoken => by cases htoken⟩
    | some e =>
      rw [hidx] at hl
      simp only [Option.map_some, hi.index user.id e hidx, Bool.false_eq_true, if_false] at hl
      cases hl
      exact ⟨rfl, fun token htoken => htoken⟩
  obtain ⟨rfl, hfound⟩ := hcases
  exact ⟨fun th' _ x => hfree th' x,
    fun token hp => hfound token (hindex token (hpending token _ hp))⟩

/-- The old token is deleted, and nobody is about to write it again. -/
theorem one_deleteOld (h : One s) {user : User} {oldToken : Text}
    (hphase : s.threads th = .deleteOld user oldToken)
    (hwritten : ∀ th' user', s.threads th' ≠ .putUser user' oldToken) :
    One (s.moveTo th (.setIndex user) (s.redis.delete oldToken)) := by
  have hl : (s.threads th).taken = some (user.id, some oldToken) := by rw [hphase]; rfl
  refine one_of_pending h (fun token u => pending_moveTo (within_delete oldToken s.redis)
    fun user' => by simp) fun u found hl' => ?_
  cases hl'
  refine ⟨others_free h hl, fun token hp => ?_⟩
  have hold := pending_moveTo (within_delete oldToken s.redis) (fun user' => by simp) hp
  cases h.only th user.id _ hl token hold
  rcases hp with ⟨e, he, -⟩ | ⟨th', user', hth', -⟩
  · exact absurd rfl (hash_delete.mp he).1
  · by_cases hne : th' = th
    · subst hne
      rw [threads_moveTo] at hth'
      cases hth'
    · rw [threads_moveTo_of_ne hne] at hth'
      exact absurd hth' (hwritten th' user')

/-- A new token is drawn: no other token of the user is there. -/
theorem one_draw (h : One s) {user : User} (newToken : Text)
    (hphase : s.threads th = .setIndex user) :
    One (s.moveTo th (.putUser user newToken) (s.redis.setIndex user.id newToken)) := by
  have hl : (s.threads th).taken = some (user.id, none) := by rw [hphase]; rfl
  have hnone : ∀ token, ¬s.Pending token user.id := fun token hp => by
    cases h.only th user.id none hl token hp
  have hpending : ∀ {token u}, (s.moveTo th (.putUser user newToken)
      (s.redis.setIndex user.id newToken)).Pending token u →
        (token = newToken ∧ u = user.id) ∨ s.Pending token u := by
    rintro token u (hholds | ⟨th', user', hth', rfl⟩)
    · exact .inr (.inl (holds_of_within (within_setIndex user.id newToken s.redis) hholds))
    · by_cases hne : th' = th
      · subst hne
        rw [threads_moveTo] at hth'
        cases hth'
        exact .inl ⟨rfl, rfl⟩
      · rw [threads_moveTo_of_ne hne] at hth'
        exact .inr (.inr ⟨th', user', hth', rfl⟩)
  have htaken : ∀ th' u x, ((s.moveTo th (.putUser user newToken)
      (s.redis.setIndex user.id newToken)).threads th').taken = some (u, x) →
        th' ≠ th ∧ (s.threads th').taken = some (u, x) := by
    intro th' u x hx
    by_cases hne : th' = th
    · subst hne
      rw [threads_moveTo] at hx
      cases hx
    · rw [threads_moveTo_of_ne hne] at hx
      exact ⟨hne, hx⟩
  refine ⟨fun u token token' h₁ h₂ => ?_, fun th₁ th₂ u x y h₁ h₂ => ?_,
    fun th' u found h' token hp => ?_⟩
  · rcases hpending h₁ with ⟨rfl, rfl⟩ | hold₁ <;> rcases hpending h₂ with ⟨rfl, huser⟩ | hold₂
    · rfl
    · exact absurd hold₂ (hnone _)
    · subst huser
      exact absurd hold₁ (hnone _)
    · exact h.one u token token' hold₁ hold₂
  · exact h.alone th₁ th₂ u x y (htaken th₁ u x h₁).2 (htaken th₂ u y h₂).2
  · obtain ⟨hne, hold'⟩ := htaken th' u found h'
    rcases hpending hp with ⟨rfl, rfl⟩ | hold
    · exact absurd hold' (others_free h hl th' hne found)
    · exact h.only th' u found hold' token hold

/-- The token is written: it was about to be. -/
theorem one_putUser (h : One s) {user : User} {newToken : Text} {dto : LoginUser}
    (hphase : s.threads th = .putUser user newToken) (hid : dto.id = user.id) :
    One (s.moveTo th (.expireNew user newToken) (s.redis.putAll newToken dto)) := by
  refine one_of_pending h (fun token u hp => ?_) fun u found hl => by cases hl
  rcases hp with ⟨e, he, rfl⟩ | ⟨th', user', hth', rfl⟩
  · rcases hash_putAll he with ⟨rfl, huser⟩ | ⟨-, hold⟩
    · exact .inr ⟨th, user, hphase, hid.symm.trans huser.symm⟩
    · exact .inl ⟨e, hold, rfl⟩
  · by_cases hne : th' = th
    · subst hne
      rw [threads_moveTo] at hth'
      cases hth'
    · rw [threads_moveTo_of_ne hne] at hth'
      exact .inr ⟨th', user', hth', rfl⟩

/-- **A step that meets `SingleSession` leaves one token.** -/
theorem one_step (hi : Inv isBlank s) (h : One s) (hsingle : SingleSession s a)
    (hstep : step isBlank trim s a = some t) : One t := by
  cases a with
  | login th user =>
    simp only [step] at hstep
    split at hstep <;> cases hstep
    exact one_login hi h hsingle
  | deleteOld th =>
    simp only [step] at hstep
    split at hstep
    · rename_i user oldToken hphase
      cases hstep
      exact one_deleteOld h hphase (hsingle.written th user oldToken rfl hphase)
    · cases hstep
  | setIndex th newToken =>
    simp only [step] at hstep
    split at hstep
    · rename_i user hphase
      split at hstep <;> cases hstep
      have hdrawn := one_draw h newToken hphase
      exact ⟨hdrawn.one, hdrawn.alone, hdrawn.only⟩
    · cases hstep
  | putUser th userInfo =>
    simp only [step] at hstep
    split at hstep
    · rename_i user newToken hphase
      cases hstep
      exact one_putUser h hphase rfl
    · cases hstep
  | expireNew th =>
    simp only [step] at hstep
    split at hstep <;> cases hstep
    exact one_leave h (within_expire _ s.redis) (by simp) rfl
  | request th token =>
    simp only [step] at hstep
    split at hstep
    · split at hstep
      · cases hstep
        exact h
      · split at hstep <;> cases hstep
        · exact h
        · exact one_leave h (Within.refl s.redis) (by simp) rfl
    · cases hstep
  | refresh th =>
    simp only [step] at hstep
    split at hstep <;> cases hstep
    exact one_leave h (within_expire _ s.redis) (by simp) rfl
  | updateProfile th profile today userExists =>
    simp only [step] at hstep
    split at hstep
    · split at hstep <;> cases hstep <;> exact one_leave h (Within.refl s.redis) (by simp) rfl
    · cases hstep
  | saveProfile th =>
    simp only [step] at hstep
    split at hstep
    · rename_i token user hphase
      cases hstep
      have hw := within_saveProfile hi hphase (hsingle.live token user hphase)
      exact one_leave h hw (by simp) rfl
    · cases hstep
  | finish th =>
    simp only [step] at hstep
    split at hstep <;> cases hstep
    exact one_leave h (Within.refl s.redis) (by simp) rfl
  | logout token =>
    simp only [step] at hstep
    split at hstep <;> cases hstep
    · exact h
    · exact one_setRedis h (within_delete token s.redis)
  | elapse seconds =>
    cases hstep
    exact one_setRedis h (within_elapse _ s.redis)

/-! ## Runs -/

omit [DecidableEq Thread] in
theorem pending_start {now : Time} : ¬(State.start now : State Thread).Pending token u := by
  rintro (⟨e, he, -⟩ | ⟨th, user, hth, -⟩)
  · cases he
  · cases hth

omit [DecidableEq Thread] in
theorem one_start (now : Time) : One (State.start now : State Thread) where
  one u token token' h := absurd h pending_start
  alone th th' u x y h := by cases h
  only th u found h := by cases h

/-- **At most one live login token per user**, in every state of a run whose steps meet
`SingleSession`, whether or not a login is in progress. -/
theorem oneToken {now : Time} {as : List (Action Thread)}
    (hP : Along (step isBlank trim) SingleSession (.start now) as)
    (hrun : run (step isBlank trim) (.start now) as = some t) : t.OneToken := by
  have hpreserves : Preserves (step isBlank trim) SingleSession
      (fun s : State Thread => Inv isBlank s ∧ One s) := by
    rintro s a t hsingle ⟨hi, h⟩ hstep
    exact ⟨inv_step hi hsingle.live hstep, one_step hi h hsingle hstep⟩
  have hend := run_invariant hpreserves hP ⟨inv_start isBlank now, one_start now⟩ hrun
  exact fun u token token' h₁ h₂ => hend.2.one u token token' (.inl h₁) (.inl h₂)

/-- A login whose token is used shortly before the index expires, and another login shortly
after. -/
def lateLogin (th : Thread) (user : User) (first second : Text) : List (Action Thread) :=
  [.login th user, .setIndex th first, .putUser th none, .expireNew th,
    .elapse 2159999, .request th first, .refresh th, .finish th, .elapse 2,
    .login th user, .setIndex th second, .putUser th none, .expireNew th]

/-- Both tokens are live, and no login is in progress. -/
theorem oneToken_fails :
    ¬∀ (as : List (Action Unit)) (t : State Unit),
      run (step (fun text => text.isEmpty) id) (.start 0) as = some t →
        (∀ th, (t.threads th).login = none) → t.OneToken := by
  intro h
  obtain ⟨t, ht, hend⟩ := Option.map_eq_some_iff.mp
    (show (run (step (fun text => text.isEmpty) id) (.start 0)
      (lateLogin () ⟨7, none, none⟩ ['a'] ['b'])).map (fun t : State Unit =>
        ((t.threads ()).login, (t.redis.hash ['a']).map fun e => e.value.id,
          (t.redis.hash ['b']).map fun e => e.value.id)) =
      some (none, some 7, some 7) by decide +kernel)
  obtain ⟨hidle, htokens⟩ := Prod.mk.inj hend
  obtain ⟨ha, hb⟩ := Prod.mk.inj htokens
  have hsame := h _ t ht (fun _ => hidle) 7 ['a'] ['b'] (Option.map_eq_some_iff.mp ha)
    (Option.map_eq_some_iff.mp hb)
  exact absurd hsame (by decide)

/-- A login of the only thread finds the tokens of its user in the index; no profile is saved. -/
def indexedLogins (s : State Unit) : Action Unit → Bool
  | .login _ user => decide (s.threads () = .idle) && s.drawn.all fun token =>
      (s.redis.hash token).all fun e => decide (e.value.id = user.id →
        (s.redis.index user.id).map Expiring.value = some token)
  | .saveProfile _ => false
  | _ => true

theorem singleSession_of_indexed {s : State Unit} {a : Action Unit} (hi : Inv isBlank s)
    (ha : indexedLogins s a = true) : SingleSession s a := by
  refine ⟨?_, ?_, ?_, ?_⟩
  · rintro th user rfl th' x h
    simp only [indexedLogins, Bool.and_eq_true, decide_eq_true_eq] at ha
    rw [ha.1] at h
    cases h
  · rintro th user rfl token hpending
    simp only [indexedLogins, Bool.and_eq_true, decide_eq_true_eq, List.all_eq_true] at ha
    rcases hpending with ⟨e, he, hid⟩ | ⟨th', user', hth', -⟩
    · have hindexed := ha.2 token (hi.known token (Or.inl (by rw [he]; rfl)))
      rw [he, Option.all_some] at hindexed
      exact of_decide_eq_true hindexed hid
    · rw [ha.1] at hth'
      cases hth'
  · rintro th user oldToken rfl hth th' user' hth'
    rw [hth] at hth'
    cases hth'
  · cases a with
    | saveProfile th => cases ha
    | _ => trivial

/-- A login, a request with its token, and another login. -/
def loginAgain (user : User) (first second : Text) : List (Action Unit) :=
  [.login () user, .setIndex () first, .putUser () none, .expireNew (),
    .request () first, .refresh (), .finish (), .elapse 5,
    .login () user, .deleteOld (), .setIndex () second, .putUser () none, .expireNew ()]

theorem oneToken_again :
    ∃ t : State Unit, run (step (fun text => text.isEmpty) id) (.start 0)
        (loginAgain ⟨7, none, none⟩ ['a'] ['b']) = some t ∧
      t.revoked ['a'] = true ∧ t.Holds ['b'] 7 ∧ t.OneToken := by
  obtain ⟨t, ht, hends⟩ := Option.map_eq_some_iff.mp
    (show (run (step (fun text => text.isEmpty) id) (.start 0)
      (loginAgain ⟨7, none, none⟩ ['a'] ['b'])).map (fun t : State Unit =>
        (t.revoked ['a'], (t.redis.hash ['b']).map fun e => e.value.id)) =
      some (true, some 7) by decide +kernel)
  obtain ⟨hrevoked, hlive⟩ := Prod.mk.inj hends
  have hP : Along (step (fun text => text.isEmpty) id) SingleSession (.start 0)
      (loginAgain ⟨7, none, none⟩ ['a'] ['b']) := by
    refine along_mono (I := Inv fun text => text.isEmpty)
      (P := fun s a => indexedLogins s a = true) (fun _ _ => singleSession_of_indexed) ?_
      (inv_start _ 0) (by decide +kernel)
    exact fun _ _ _ ha hi hstep => inv_step hi (singleSession_of_indexed hi ha).live hstep
  exact ⟨t, ht, hrevoked, Option.map_eq_some_iff.mp hlive, oneToken hP ht⟩

end Hmdp.Login
