import Hmdp.Lib.Reaches
import Hmdp.Web.Authenticated

/-!
# A refresh that throws

`RefreshTokenInterceptor.preHandle` saves the user before it sends `expire`. If that throws, the
user stays with the worker, and the next request on it that brings no token is handled as that
user, on any path (`handled_as_stranger`). So the condition of the previous module is exact:

* `refresh_returns_iff`: no refresh of a run throws iff in every state of the run, requests are and
  will be handled as the users of their own tokens.
-/

namespace Hmdp.Web

open Hmdp.Lib Hmdp.Model

/-- The user of every handler is the one whose login was handed the token of the request. -/
def State.OwnUsers {Worker : Type} (s : State Worker) : Prop :=
  ∀ w request task user, (s.workers w).stage = .handling request task →
    (s.workers w).holder = some user → Session s.history request.token user.id

variable {Worker : Type} [DecidableEq Worker] {isBlank : Text → Bool} {trim : Text → Text}
  {checkpw : Text → Text → Option Bool} {hashpw : Text → Text → Text} {users : UserTable}
  {s t : State Worker} {a : Action Worker} {w : Worker} {user : LoginUser} {request : Request}

omit [DecidableEq Worker] in
theorem ownUsers_of_inv (hi : Inv isBlank checkpw hashpw users s) : s.OwnUsers := by
  intro w request task user hstage huser
  obtain ⟨request', hrequest, hsession⟩ := (hi.jobs w).holder user huser
  rw [hstage] at hrequest
  cases hrequest
  exact hsession

/-! ## The interceptors for a request without a token -/

theorem step_arrive (hstage : (s.workers w).stage = .idle) (request : Request) :
    step isBlank trim checkpw hashpw s (.arrive w request) =
      some (s.goTo w (.arrived request)) := by
  simp [step, Action.worker, stepWorker, hstage]

theorem step_readHash (hstage : (s.workers w).stage = .arrived request)
    (htoken : request.token = none) :
    step isBlank trim checkpw hashpw s (.readHash w) = some (s.goTo w (.refreshed request)) := by
  simp [step, Action.worker, stepWorker, hstage, intercept, foundUser, htoken]

theorem step_checkLogin (hstage : (s.workers w).stage = .refreshed request)
    (hholder : (s.workers w).holder = some user) :
    step isBlank trim checkpw hashpw s (.checkLogin w) =
      some (s.goTo w (.handling request .start)) := by
  simp [step, Action.worker, stepWorker, hstage, intercept, admitted, hholder]

theorem stage_goTo (s : State Worker) (w : Worker) (stage : Stage) :
    ((s.goTo w stage).workers w).stage = stage := by
  rw [State.goTo, workers_setJob]

theorem holder_goTo (s : State Worker) (w : Worker) (stage : Stage) :
    ((s.goTo w stage).workers w).holder = (s.workers w).holder := by
  rw [State.goTo, workers_setJob]

/-- Once a worker waits with a user, a request without a token is handled as that user. -/
theorem handled_as_stranger (hstage : (s.workers w).stage = .idle)
    (hholder : (s.workers w).holder = some user) (path : List Text) :
    ∃ t, Reaches (step isBlank trim checkpw hashpw) RefreshReturns s t ∧
      (t.workers w).stage = .handling ⟨path, none⟩ .start ∧
      (t.workers w).holder = some user := by
  let s₁ := s.goTo w (.arrived ⟨path, none⟩)
  let s₂ := s₁.goTo w (.refreshed ⟨path, none⟩)
  have hholder₂ : (s₂.workers w).holder = some user :=
    (holder_goTo s₁ w _).trans ((holder_goTo s w _).trans hholder)
  have h₁ : Reaches (step isBlank trim checkpw hashpw) RefreshReturns s s₁ :=
    .single (a := .arrive w _) trivial (step_arrive hstage _)
  have h₂ : Reaches (step isBlank trim checkpw hashpw) RefreshReturns s₁ s₂ :=
    .single (a := .readHash w) trivial (step_readHash (stage_goTo s w _) rfl)
  have h₃ : Reaches (step isBlank trim checkpw hashpw) RefreshReturns s₂
      (s₂.goTo w (.handling ⟨path, none⟩ .start)) :=
    .single (a := .checkLogin w) trivial (step_checkLogin (stage_goTo s₁ w _) hholder₂)
  exact ⟨_, (h₁.trans h₂).trans h₃, stage_goTo s₂ w _, (holder_goTo s₂ w _).trans hholder₂⟩

/-! ## The step that throws -/

/-- A refresh that throws leaves its worker waiting, with the user. -/
theorem waits_with_user {applied : Bool} (hi : Inv isBlank checkpw hashpw users s)
    (hstep : step isBlank trim checkpw hashpw s (.refresh w (.throws applied)) = some t) :
    (t.workers w).stage = .idle ∧ ∃ user, (t.workers w).holder = some user := by
  simp only [step, Action.worker, Option.bind_some, stepWorker] at hstep
  split at hstep
  · rename_i h _
    cases h
  · rename_i h _
    cases h
  · rename_i h _
    cases h
  · simp [handle] at hstep
  · simp [resume] at hstep
  · unfold intercept at hstep
    split at hstep
    · rename_i h _
      cases h
    · rename_i h _
      cases h
    · rename_i h _
      cases h
    · rename_i request token h hstage
      cases hstep
      obtain ⟨user, huser⟩ := Option.isSome_iff_exists.mp
        ((hi.jobs w).refreshing request token hstage)
      exact ⟨stage_goTo s w .idle, user, (holder_goTo s w .idle).trans huser⟩
    · rename_i h _
      cases h
    · cases hstep

/-- **No refresh may throw.** The refreshes of a run all return iff in every state the run reaches,
every request is handled as the user of its own token, and so it will be as long as no refresh
throws. -/
theorem refresh_returns_iff {now : Time} {as : List (Action Worker)}
    (hr : run (step isBlank trim checkpw hashpw) (.start users now : State Worker) as = some t) :
    Along (step isBlank trim checkpw hashpw) RefreshReturns (.start users now : State Worker) as ↔
      ∀ bs u, bs <+: as →
        run (step isBlank trim checkpw hashpw) (.start users now : State Worker) bs = some u →
        ∀ v, Reaches (step isBlank trim checkpw hashpw) RefreshReturns u v → v.OwnUsers := by
  refine along_iff_invariant (J := Inv isBlank checkpw hashpw users) inv_step
    (fun s a t hi hown hstep => ⟨fun hown' => ?_, fun ha v hv => ?_⟩) (inv_start users now)
    (fun v hv => ownUsers_of_inv (hv.keeps inv_step (inv_start users now))) hr
  · cases a with
    | refresh w reply =>
      cases reply with
      | returns => rfl
      | throws applied =>
        obtain ⟨hstage, user, huser⟩ := waits_with_user hi hstep
        obtain ⟨v, hv, hhandling, hholder⟩ := handled_as_stranger hstage huser profilePath
        obtain ⟨token, ground, htoken, -⟩ := hown' v hv w _ _ user hhandling hholder
        cases htoken
    | _ => trivial
  · exact hown v ((Reaches.single ha hstep).trans hv)

/-- The token of the first login is refreshed, but the `expire` throws. -/
def failedRefresh : List (Action Bool) := firstLogin.take 18 ++ [.refresh true (.throws false)]

theorem refresh_returns_iff_failed :
    ∃ (bs : List (Action Bool)) (u : State Bool), bs <+: failedRefresh ∧
      run (step List.isEmpty id (fun raw encoded => some (raw == encoded)) (fun raw _ => raw))
        (.start Table.empty 0) bs = some u ∧
      ∃ v, Reaches (step List.isEmpty id (fun raw encoded => some (raw == encoded))
        (fun raw _ => raw)) RefreshReturns u v ∧ ¬v.OwnUsers := by
  have hnot : ¬Along (step List.isEmpty id (fun raw encoded => some (raw == encoded))
      (fun raw _ => raw)) RefreshReturns (.start Table.empty 0 : State Bool) failedRefresh := by
    decide
  have h := mt (refresh_returns_iff rfl).mpr hnot
  push Not at h
  exact h

end Hmdp.Web
