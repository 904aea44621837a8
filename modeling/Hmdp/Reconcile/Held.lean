import Hmdp.Reconcile.Step

/-!
# What holds of a call that has its recovery key

Both results about the reconciliation are invariants of the calls of a voucher that still have
their key: what the local variables of the call say about the stores. Such an invariant does not
look at what other calls write (`CallInvariant.frame`), so only the steps of the pipeline, the
call's own commands and the end of its staging set have to be looked at.

* **`held_step`**: the rule.
-/

namespace Hmdp.Reconcile

open Hmdp.Lib Hmdp.Model Hmdp.Pipeline

variable {rejects : Reservation → Bool} {batchSize : ℕ} {s t : State} {v : VoucherId}
  {K : Pipeline.State → Rebuild → Prop}

/-- The calls of `v` that have their key meet `K`. -/
def Held (K : Pipeline.State → Rebuild → Prop) (v : VoucherId) (s : State) : Prop :=
  ∀ i c, (s.recons i).current = some c → c.voucherId = v → Holds s c → K s.pipeline c

/-- `K` asks nothing of a call that has read nothing yet or has failed, and looks at no key that
other calls write while this one has its key. -/
structure CallInvariant (K : Pipeline.State → Rebuild → Prop) : Prop where
  locked : ∀ p c, c.phase = .locked → K p c
  failed : ∀ p c, c.phase = .failed → K p c
  frame : ∀ p c (redis : Redis), redis.handoff = p.redis.handoff →
    redis.stock c.voucherId = p.redis.stock c.voucherId →
    redis.staged c.voucherId c.token = p.redis.staged c.voucherId c.token →
    K p c → K { p with redis := redis } c

theorem Start.held (h : Start rejects s) : Held K v s := by
  intro i c hc
  rw [h.idle i] at hc
  exact absurd hc (by simp [Recon.idle])

/-- A reconciler moves on: the invariant of its new call is enough. -/
theorem Held.withRecon (h : Held K v s) (i : ℕ) {recon : Recon}
    (hr : ∀ c, recon.current = some c → c.voucherId = v → Holds s c → K s.pipeline c) :
    Held K v (s.withRecon i recon) := by
  intro j c hc hv hold
  by_cases hj : j = i
  · subst hj
    exact hr c (by simpa using hc) hv hold
  · exact h j c (by simpa [hj] using hc) hv hold

/-- **The writes of a call leave the others' invariants alone.** -/
theorem Held.of_writes (hK : CallInvariant K) (hs : Consistent rejects s) (h : Held K v s) {i : ℕ}
    {c : Rebuild} {redis : Redis} (hc : (s.recons i).current = some c)
    (hw : c.Writes s.pipeline.redis redis) {j : ℕ} {d : Rebuild} (hj : j ≠ i)
    (hd : (s.recons j).current = some d) (hv : d.voucherId = v)
    (hold : Holds (s.withRedis redis) d) :
    K { s.pipeline with redis := redis } d := by
  have htoken : d.token ≠ c.token := fun he => hj (hs.distinct j i d c hd hc he)
  cases hw with
  | nothing same =>
    subst same
    exact h j d hd hv hold
  | staged staging write =>
    subst write
    exact hK.frame _ _ _ rfl rfl (Redis.staged_setStaging_of_ne _ (fun _ => htoken) staging)
      (h j d hd hv hold)
  | rebuilt expectedStock _ _ write =>
    subst write
    obtain ⟨hne, hheld⟩ := recovery_erase hold
    refine hK.frame _ _ _ rfl (Function.update_of_ne hne _ _) ?_ (h j d hd hv hheld)
    simp [Redis.staged, hne]
  | unlocked _ write =>
    subst write
    exact hK.frame _ _ _ rfl rfl rfl (h j d hd hv (recovery_erase hold).2)

/-- A call that wrote and still has its key had it before. -/
theorem holds_of_writes {c : Rebuild} {redis : Redis} (hw : c.Writes s.pipeline.redis redis)
    (hold : redis.recovery c.voucherId = some c.token) : Holds s c := by
  cases hw with
  | nothing same =>
    subst same
    exact hold
  | staged staging write =>
    subst write
    exact hold
  | rebuilt _ _ held _ => exact held
  | unlocked held _ => exact held

/-- A call under way that has its key when another has been taken had it before. -/
theorem holds_of_lock (hs : Consistent rejects s) {w : VoucherId} {token : Text}
    (hfresh : token ∉ s.tokens) {j : ℕ} {c : Rebuild} (hc : (s.recons j).current = some c)
    (hold : Function.update s.pipeline.redis.recovery w (some token) c.voucherId = some c.token) :
    Holds s c := by
  by_cases hw : c.voucherId = w
  · -- the key holds the new token, which is not that of an older call
    have htoken : token = c.token := by simpa [hw] using hold
    exact absurd (htoken ▸ hs.drawn j c hc) hfresh
  · simpa [Holds, hw] using hold

/-- **The rule.** An invariant of the calls that have their key is kept by a step if the steps of
the pipeline keep it, the commands of a call carry it on, and it survives the end of the staging
set. -/
theorem held_step (hK : CallInvariant K) {a : Action} (hs : Consistent rejects s)
    (h : Held K v s)
    (hpipeline : ∀ action p, a = .pipeline action →
      Pipeline.step rejects s.pipeline action = some p → ∀ i c, (s.recons i).current = some c →
        c.voucherId = v → Holds s c → K s.pipeline c → K p c)
    (hadvance : ∀ i c phase, a = .advance i → (s.recons i).current = some c → c.voucherId = v →
      Holds s c → (c.advance batchSize s.pipeline.redis s.pipeline.db).2 = .next phase →
        K s.pipeline c →
        K { s.pipeline with redis := (c.advance batchSize s.pipeline.redis s.pipeline.db).1 }
          { c with phase := phase })
    (hexpire : ∀ i c, a = .expireStaging c.voucherId c.token → (s.recons i).current = some c →
      c.voucherId = v → Holds s c → K s.pipeline c →
        K { s.pipeline with redis := s.pipeline.redis.setStaging c.voucherId c.token none } c)
    (hstep : step rejects batchSize s a = some t) : Held K v t := by
  cases a with
  | pipeline action =>
    obtain ⟨p, hp, rfl⟩ := Option.map_eq_some_iff.mp hstep
    intro i c hc hv hold
    have hheld : Holds s c := by
      rw [Holds, ← (step_recovery hs.coherent hp).1]
      exact hold
    exact hpipeline action p rfl hp i c hc hv hheld (h i c hc hv hheld)
  | list i voucherIds =>
    simp only [step] at hstep
    split at hstep <;> cases hstep
    exact h.withRecon i (by simp)
  | lock i token =>
    simp only [step] at hstep
    split at hstep
    · rename_i w n todo hi
      split at hstep
      · exact absurd hstep (by simp)
      rename_i hfresh
      cases hstep
      rcases lockRecovery_cases w token s.pipeline.redis with ⟨-, heq⟩ | ⟨-, heq⟩
      · rw [heq]
        exact h.withRecon i (by simp)
      · rw [heq]
        intro j c hc hv hold
        by_cases hj : j = i
        · subst hj
          simp only [State.withRecon, Function.update_self, if_true, Option.some.injEq] at hc
          exact hK.locked _ _ (hc ▸ rfl)
        · have hc' : (s.recons j).current = some c := by
            simpa [State.withRecon, State.withRedis, hj] using hc
          exact hK.frame _ _ _ rfl rfl rfl (h j c hc' hv (holds_of_lock hs hfresh hc' hold))
    · exact absurd hstep (by simp)
  | advance i =>
    simp only [step] at hstep
    split at hstep
    · exact absurd hstep (by simp)
    rename_i c hc
    cases hstep
    have hw := c.advance_writes batchSize s.pipeline.redis s.pipeline.db
    intro j d hd hv hold
    by_cases hj : j = i
    · subst hj
      have hd : ((s.recons j).after c
          (c.advance batchSize s.pipeline.redis s.pipeline.db).2).current = some d := by
        simpa using hd
      obtain ⟨phase, hphase, rfl⟩ := Recon.after_current hd
      have hheld : Holds s c := holds_of_writes hw hold
      exact hadvance j c phase rfl hc hv hheld hphase (h j c hc hv hheld)
    · have hd : (s.recons j).current = some d := by
        simpa [hj] using hd
      exact h.of_writes hK hs hc hw hj hd hv hold
  | fail i =>
    simp only [step] at hstep
    split at hstep
    · exact absurd hstep (by simp)
    rename_i c hc
    cases hstep
    refine h.withRecon i fun d hd hv hold => hK.failed _ _ ?_
    obtain ⟨phase, hphase, rfl⟩ := Recon.after_current hd
    unfold Phase.throw at hphase
    split at hphase <;> cases hphase
    rfl
  | stop i =>
    cases hstep
    exact h.withRecon i (by simp [Recon.idle])
  | expire w =>
    cases hstep
    intro i c hc hv hold
    exact hK.frame _ _ _ rfl rfl rfl (h i c hc hv (recovery_erase hold).2)
  | expireStaging w token =>
    simp only [step] at hstep
    split at hstep <;> cases hstep
    intro i c hc hv hold
    have hc : (s.recons i).current = some c := hc
    have hheld : Holds s c := hold
    by_cases hown : c.voucherId = w ∧ c.token = token
    · obtain ⟨rfl, rfl⟩ := hown
      exact hexpire i c rfl hc hv hheld (h i c hc hv hheld)
    · have hstaged := s.pipeline.redis.staged_setStaging_of_ne
        (fun hw htoken => hown ⟨hw, htoken⟩) (none : Option Staging)
      exact hK.frame _ _ _ rfl rfl hstaged (h i c hc hv hheld)
  | expireOrder w =>
    simp only [step] at hstep
    split at hstep <;> cases hstep
    intro i c hc hv hold
    exact hK.frame _ _ _ rfl rfl rfl (h i c hc hv hold)

end Hmdp.Reconcile
