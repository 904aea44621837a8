import Hmdp.Login.Step

/-!
# Revoked tokens

A token is revoked once its hash has existed and then was deleted, by a logout or the user's next
login, or expired. `updateProfile` writes the hash of its request's token without looking whether it
is still there, so a request that was authenticated before can bring a revoked token back
(`staysRevoked_fails`), and nothing else can (`staysRevoked_iff`).
-/

namespace Hmdp.Login

open Hmdp.Lib Hmdp.Model

variable {Thread : Type} [DecidableEq Thread] {isBlank : Text → Bool} {trim : Text → Text}
  {s t : State Thread} {a : Action Thread}

/-- The hash of a revoked token does not exist. -/
def State.StaysRevoked (s : State Thread) : Prop :=
  ∀ token, s.revoked token = true → s.redis.hash token = none

/-- A request with a revoked token is not authenticated. -/
theorem request_of_revoked (hs : s.StaysRevoked) {th : Thread} {token : Text}
    (h : s.revoked token = true) (hstep : step isBlank trim s (.request th token) = some t) :
    t = s := by
  simp only [step, hs token h] at hstep
  split at hstep
  · split at hstep <;> cases hstep <;> rfl
  · cases hstep

omit [DecidableEq Thread] in
theorem staysRevoked_effect (hi : Inv isBlank s) (hs : s.StaysRevoked) (he : Effect s t) :
    t.StaysRevoked := by
  intro token hrevoked
  cases he with
  | within kept noted =>
    rw [noted] at hrevoked
    simp only [State.setRedis, Bool.or_eq_true, Bool.and_eq_true, Option.isNone_iff_eq_none]
      at hrevoked
    rcases hrevoked with hold | ⟨-, hgone⟩
    · cases h : t.redis.hash token with
      | none => rfl
      | some e' =>
        obtain ⟨e, he, -⟩ := kept token e' h
        cases (hs token hold).symm.trans he
    · exact hgone
  | written th user newToken userInfo phase added noted =>
    have hnot := (hi.fresh th newToken (by rw [phase]; rfl)).2
    rw [noted] at hrevoked
    simp only [State.setRedis, Bool.or_eq_true, Bool.and_eq_true, Option.isNone_iff_eq_none]
      at hrevoked
    rcases hrevoked with hold | ⟨-, hgone⟩
    · have hne : token ≠ newToken := by
        rintro rfl
        exact hnot (.inr hold)
      rw [added]
      exact (Function.update_of_ne hne ..).trans (hs token hold)
    · exact hgone

/-- **A step keeps the revoked tokens revoked exactly if a profile update it makes writes a hash
that exists.** -/
theorem staysRevoked_step (hi : Inv isBlank s) (hs : s.StaysRevoked)
    (hstep : step isBlank trim s a = some t) : t.StaysRevoked ↔ UpdatesLive s a := by
  constructor
  · intro ht
    cases a with
    | saveProfile th =>
      intro token user hphase
      by_contra hgone
      have hnone : s.redis.hash token = none := by simpa using hgone
      have hwritten := (hi.requests th token user (by rw [hphase]; rfl)).1
      have hrevoked : s.revoked token = true := hwritten.resolve_left hgone
      simp only [step, hphase, Option.some.injEq] at hstep
      subst hstep
      have hback := ht token (by simp [State.moveTo, State.setPhase, State.setRedis, hrevoked])
      simp [State.moveTo, State.setPhase, State.setRedis, LoginRedis.putAll] at hback
    | _ => trivial
  · intro hlive
    exact staysRevoked_effect hi hs (step_effect hi hlive hstep)

/-- **A revoked token stays revoked iff no profile update writes a hash that is gone.** In every
state of a run the hash of each revoked token is missing, exactly if every write of
`updateProfile` in the run finds its hash. -/
theorem staysRevoked_iff {now : Time} {as : List (Action Thread)}
    (hrun : run (step isBlank trim) (.start now) as = some t) :
    (∀ bs u, bs <+: as → run (step isBlank trim) (.start now) bs = some u → u.StaysRevoked) ↔
      Along (step isBlank trim) UpdatesLive (.start now) as :=
  (along_iff_invariant (P := UpdatesLive) (J := Inv isBlank)
    (fun _ _ _ hlive hi hstep => inv_step hi hlive hstep)
    (fun _ _ _ hi hs hstep => staysRevoked_step hi hs hstep) (inv_start isBlank now)
    (fun _ h => by cases h) hrun).symm

/-- A login with the token, a request with it that updates the profile, and a logout before the
write of the update. -/
def lateUpdate (th : Thread) (user : User) (token : Text) (profile : UserProfileUpdateDTO) :
    List (Action Thread) :=
  [.login th user, .setIndex th token, .putUser th none, .expireNew th,
    .request th token, .refresh th, .updateProfile th (some profile) 0 true,
    .logout token, .saveProfile th]

/-- The logged out token exists again after the update. -/
theorem staysRevoked_fails :
    ¬∀ (as : List (Action ℕ)) (t : State ℕ),
      run (step (fun text => text.isEmpty) id) (.start 0) as = some t → t.StaysRevoked := by
  intro h
  obtain ⟨t, ht, hrevoked⟩ := Option.map_eq_some_iff.mp
    (show (run (step (fun text => text.isEmpty) id) (.start 0)
      (lateUpdate 0 ⟨7, some ['n'], none⟩ ['t'] ⟨some ['n'], none, none, none, none⟩)).map
        (fun t : State ℕ => (t.revoked ['t'], (t.redis.hash ['t']).isSome)) =
      some (true, true) by decide +kernel)
  obtain ⟨hrevoked, hexists⟩ := Prod.mk.inj hrevoked
  rw [h _ t ht ['t'] hrevoked] at hexists
  cases hexists

/-- A first login whose token is revoked by a second one. -/
def secondLogin (th : Thread) (user : User) (first second : Text) : List (Action Thread) :=
  [.login th user, .setIndex th first, .putUser th none, .expireNew th,
    .login th user, .deleteOld th, .setIndex th second, .putUser th none, .expireNew th]

theorem staysRevoked_secondLogin :
    ∃ t : State ℕ, t.revoked ['a'] = true ∧ t.StaysRevoked := by
  obtain ⟨t, ht, hrevoked⟩ := Option.map_eq_some_iff.mp
    (show (run (step (fun text => text.isEmpty) id) (.start 0)
      (secondLogin 0 ⟨7, none, none⟩ ['a'] ['b'])).map (fun t : State ℕ => t.revoked ['a']) =
      some true by decide +kernel)
  have hlive : Along (step (fun text => text.isEmpty) id) UpdatesLive (.start 0)
      (secondLogin 0 ⟨7, none, none⟩ ['a'] ['b']) :=
    along_of_forall (by simp [secondLogin, UpdatesLive]) _
  exact ⟨t, hrevoked, (staysRevoked_iff ht).mpr hlive _ t (List.prefix_refl _) ht⟩

end Hmdp.Login
