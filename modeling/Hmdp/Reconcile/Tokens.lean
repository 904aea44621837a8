import Hmdp.Reconcile.Held

/-!
# A recovery key is held by one token and never twice

Acquiring, renewing, rebuilding and unlocking all compare the key with the call's token, and no
token is drawn twice. So a key that no longer holds a token will not hold it again (`lost_step`),
and everything follows: a rebuild that succeeds had its key from the start, so no reservation got
in; a call that has lost its key writes nothing but its own staging set, for good; and a token
whose rebuild has succeeded is spent.

* **`recovery_key_fences`**: the three laws, for every run.
-/

namespace Hmdp.Reconcile

open Hmdp.Lib Hmdp.Model Hmdp.Pipeline

variable {rejects : Reservation → Bool} {batchSize : ℕ} {s t : State} {v : VoucherId}
  {token : Text} {i : ℕ} {K : VoucherId → Prop}

/-! ## Lost keys and drawn tokens -/

/-- The token has been drawn, and the recovery key of `v` does not hold it. -/
structure Lost (v : VoucherId) (token : Text) (s : State) : Prop where
  drawn : token ∈ s.tokens
  gone : s.pipeline.redis.recovery v ≠ some token

/-- The token has been drawn, and a call that has it is for a voucher of `K`. -/
structure Drawn (token : Text) (K : VoucherId → Prop) (s : State) : Prop where
  drawn : token ∈ s.tokens
  calls : ∀ i c, (s.recons i).current = some c → c.token = token → K c.voucherId

/-- A command of a call takes away its own key at most. -/
theorem writes_recovery {c : Rebuild} {redis redis' : Redis} (h : c.Writes redis redis')
    (w : VoucherId) : redis'.recovery w = redis.recovery w ∨
      (w = c.voucherId ∧ redis.recovery w = some c.token ∧ redis'.recovery w = none) := by
  have herase : Function.update redis.recovery c.voucherId none w = redis.recovery w ∨
      w = c.voucherId := (em (w = c.voucherId)).symm.imp_left fun hw => Function.update_of_ne hw _ _
  cases h with
  | nothing same => exact Or.inl (by rw [same])
  | staged staging write => exact Or.inl (by rw [write]; rfl)
  | rebuilt expectedStock _ held write =>
    subst write
    refine herase.imp_right ?_
    rintro rfl
    exact ⟨rfl, held, Function.update_self _ _ _⟩
  | unlocked held write =>
    subst write
    refine herase.imp_right ?_
    rintro rfl
    exact ⟨rfl, held, Function.update_self _ _ _⟩

theorem tokens_step {a : Action} (hstep : step rejects batchSize s a = some t) :
    s.tokens ⊆ t.tokens := by
  cases a with
  | pipeline action =>
    obtain ⟨p, -, rfl⟩ := Option.map_eq_some_iff.mp hstep
    exact Finset.Subset.refl _
  | list j voucherIds =>
    simp only [step] at hstep
    split at hstep <;> cases hstep
    exact Finset.Subset.refl _
  | lock j token =>
    simp only [step] at hstep
    split at hstep
    · split at hstep <;> cases hstep
      exact Finset.subset_insert _ _
    · exact absurd hstep (by simp)
  | advance j =>
    simp only [step] at hstep
    split at hstep <;> cases hstep
    exact Finset.Subset.refl _
  | fail j =>
    simp only [step] at hstep
    split at hstep <;> cases hstep
    exact Finset.Subset.refl _
  | stop j =>
    cases hstep
    exact Finset.Subset.refl _
  | expire w =>
    cases hstep
    exact Finset.Subset.refl _
  | expireStaging w token =>
    simp only [step] at hstep
    split at hstep <;> cases hstep
    exact Finset.Subset.refl _
  | expireOrder w =>
    simp only [step] at hstep
    split at hstep <;> cases hstep
    exact Finset.Subset.refl _

/-- **A lost key stays lost.** Only `setIfAbsent` writes a token, and it writes a new one. -/
theorem lost_step {a : Action} (hs : Consistent rejects s) (h : Lost v token s)
    (hstep : step rejects batchSize s a = some t) : Lost v token t := by
  refine ⟨tokens_step hstep h.drawn, ?_⟩
  cases a with
  | pipeline action =>
    obtain ⟨p, hp, rfl⟩ := Option.map_eq_some_iff.mp hstep
    rw [State.withPipeline_pipeline, (step_recovery hs.coherent hp).1]
    exact h.gone
  | list j voucherIds =>
    simp only [step] at hstep
    split at hstep <;> cases hstep
    exact h.gone
  | lock j fresh =>
    simp only [step] at hstep
    split at hstep
    · rename_i w n todo hj
      split at hstep
      · exact absurd hstep (by simp)
      rename_i hfresh
      cases hstep
      rcases lockRecovery_cases w fresh s.pipeline.redis with ⟨-, heq⟩ | ⟨-, heq⟩
      · rw [heq]
        exact h.gone
      · rw [heq]
        intro hheld
        by_cases hw : v = w
        · have htoken : fresh = token := by
            simpa [State.withRecon, State.withRedis, hw] using hheld
          exact hfresh (htoken ▸ h.drawn)
        · exact h.gone (by simpa [State.withRecon, State.withRedis, hw] using hheld)
    · exact absurd hstep (by simp)
  | advance j =>
    simp only [step] at hstep
    split at hstep
    · exact absurd hstep (by simp)
    rename_i c hc
    cases hstep
    intro hheld
    rcases writes_recovery (c.advance_writes batchSize s.pipeline.redis s.pipeline.db) v with
      hsame | ⟨-, -, hnone⟩
    · exact h.gone (hsame.symm.trans hheld)
    · exact absurd (hnone.symm.trans hheld) (by simp)
  | fail j =>
    simp only [step] at hstep
    split at hstep <;> cases hstep
    exact h.gone
  | stop j =>
    cases hstep
    exact h.gone
  | expire w =>
    cases hstep
    exact fun hheld => h.gone (recovery_erase hheld).2
  | expireStaging w token =>
    simp only [step] at hstep
    split at hstep <;> cases hstep
    exact h.gone
  | expireOrder w =>
    simp only [step] at hstep
    split at hstep <;> cases hstep
    exact h.gone

theorem Drawn.withRecon (h : Drawn token K s) (j : ℕ) {recon : Recon}
    (hr : ∀ d, recon.current = some d → d.token = token → K d.voucherId) :
    Drawn token K (s.withRecon j recon) := by
  refine ⟨h.drawn, fun k d hd => ?_⟩
  by_cases hk : k = j
  · subst hk
    exact hr d (by simpa using hd)
  · exact h.calls k d (by simpa [hk] using hd)

theorem Drawn.withExpiry (h : Drawn token K s) (stagingExpires : VoucherId → Text → Bool)
    (orderExpires : VoucherId → Bool) :
    Drawn token K (s.withExpiry stagingExpires orderExpires) := ⟨h.drawn, h.calls⟩

/-- **A drawn token gets no new call**, so what is known of its calls stays true. -/
theorem drawn_step {a : Action} (h : Drawn token K s)
    (hstep : step rejects batchSize s a = some t) : Drawn token K t := by
  cases a with
  | pipeline action =>
    obtain ⟨p, -, rfl⟩ := Option.map_eq_some_iff.mp hstep
    exact ⟨h.drawn, h.calls⟩
  | list j voucherIds =>
    simp only [step] at hstep
    split at hstep <;> cases hstep
    exact h.withRecon j (by simp)
  | lock j fresh =>
    simp only [step] at hstep
    split at hstep
    · rename_i w n todo hj
      split at hstep
      · exact absurd hstep (by simp)
      rename_i hfresh
      cases hstep
      have hredis : Drawn token K (s.withRedis (lockRecovery w fresh s.pipeline.redis).2) :=
        ⟨h.drawn, h.calls⟩
      have hnext : Drawn token K
          ((s.withRedis (lockRecovery w fresh s.pipeline.redis).2).withRecon j
            ⟨todo, if (lockRecovery w fresh s.pipeline.redis).1 then some ⟨w, n, fresh, .locked⟩
              else none⟩) := by
        refine hredis.withRecon j fun d hd htoken => ?_
        simp only at hd
        split at hd
        · have hd : (⟨w, n, fresh, .locked⟩ : Rebuild) = d := Option.some.inj hd
          have htoken : fresh = token := (congrArg Rebuild.token hd).trans htoken
          exact absurd (htoken ▸ h.drawn) hfresh
        · exact absurd hd (by simp)
      exact ⟨Finset.mem_insert_of_mem hnext.drawn, hnext.calls⟩
    · exact absurd hstep (by simp)
  | advance j =>
    simp only [step] at hstep
    split at hstep
    · exact absurd hstep (by simp)
    rename_i c hc
    cases hstep
    have hredis : Drawn token K
        (s.withRedis (c.advance batchSize s.pipeline.redis s.pipeline.db).1) :=
      ⟨h.drawn, h.calls⟩
    refine (hredis.withRecon j fun d hd => ?_).withExpiry _ _
    obtain ⟨phase, -, rfl⟩ := Recon.after_current hd
    exact h.calls j c hc
  | fail j =>
    simp only [step] at hstep
    split at hstep
    · exact absurd hstep (by simp)
    rename_i c hc
    cases hstep
    refine h.withRecon j fun d hd => ?_
    obtain ⟨phase, -, rfl⟩ := Recon.after_current hd
    exact h.calls j c hc
  | stop j =>
    cases hstep
    exact h.withRecon j (by simp [Recon.idle])
  | expire w =>
    cases hstep
    exact ⟨h.drawn, h.calls⟩
  | expireStaging w token =>
    simp only [step] at hstep
    split at hstep <;> cases hstep
    exact ⟨h.drawn, h.calls⟩
  | expireOrder w =>
    simp only [step] at hstep
    split at hstep <;> cases hstep
    exact ⟨h.drawn, h.calls⟩

/-! ## Runs -/

theorem consistent_run {as : List Action} (hs : Consistent rejects s)
    (hrun : run (step rejects batchSize) s as = some t) : Consistent rejects t :=
  run_invariant' (fun _ _ _ h hstep => consistent_step h hstep) hs hrun

theorem lost_run {as : List Action} (hs : Consistent rejects s) (h : Lost v token s)
    (hrun : run (step rejects batchSize) s as = some t) : Lost v token t :=
  (run_invariant' (I := fun s => Consistent rejects s ∧ Lost v token s)
    (fun _ _ _ h hstep => ⟨consistent_step h.1 hstep, lost_step h.1 h.2 hstep⟩) ⟨hs, h⟩ hrun).2

theorem drawn_run {as : List Action} (h : Drawn token K s)
    (hrun : run (step rejects batchSize) s as = some t) : Drawn token K t :=
  run_invariant' (fun _ _ _ h hstep => drawn_step h hstep) h hrun

/-- Only the call itself has its token. -/
theorem Consistent.drawn_current (hs : Consistent rejects s) {c : Rebuild}
    (hc : (s.recons i).current = some c) : Drawn c.token (· = c.voucherId) s := by
  refine ⟨hs.drawn i c hc, fun j d hd htoken => ?_⟩
  have hij := hs.distinct j i d c hd hc htoken
  subst hij
  rw [Option.some.inj (hd.symm.trans hc)]

/-! ## The laws -/

/-- The rebuild script of reconciler `i` for `v` with `token` is next, and returns 1. -/
def RebuildsWith (v : VoucherId) (token : Text) (i : ℕ) (s : State) : Prop :=
  ∃ n expectedStock, (s.recons i).current = some ⟨v, n, token, .writing [] expectedStock⟩ ∧
    (rebuildLua v token expectedStock s.pipeline.redis).1 = 1

theorem RebuildsWith.held (h : RebuildsWith v token i s) :
    s.pipeline.redis.recovery v = some token := by
  obtain ⟨n, expectedStock, -, hreply⟩ := h
  rcases rebuildLua_cases v token expectedStock s.pipeline.redis with ⟨-, heq⟩ | ⟨hheld, -⟩
  · rw [heq] at hreply
    exact absurd hreply (by simp)
  · exact hheld

/-- What the recovery keys guarantee from a state on. -/
structure Fences (rejects : Reservation → Bool) (batchSize : ℕ) (s : State) : Prop where
  /-- between the lock of a token and its rebuild no reservation of the voucher is accepted -/
  exclusive : ∀ {v token i bs c cs u w}, c.voucherId = v →
    run (step rejects batchSize) s (.lock i token :: bs) = some u →
    run (step rejects batchSize) u (.pipeline (.seckill c) :: cs) = some w →
    RebuildsWith v token i w → (seckillLua c u.pipeline.redis).1 ≠ 0
  /-- a call that has lost its key changes neither stock nor orders nor any recovery key -/
  harmless : ∀ {i c bs d u w}, (s.recons i).current = some c → ¬Holds s c →
    run (step rejects batchSize) s bs = some u → (u.recons i).current = some d →
    d.token = c.token → step rejects batchSize u (.advance i) = some w →
      w.pipeline.redis.stock = u.pipeline.redis.stock ∧
        w.pipeline.redis.purchased = u.pipeline.redis.purchased ∧
        w.pipeline.redis.recovery = u.pipeline.redis.recovery
  /-- no call deletes the key of another token -/
  own : ∀ {i c t v token}, (s.recons i).current = some c →
    step rejects batchSize s (.advance i) = some t →
    s.pipeline.redis.recovery v = some token → token ≠ c.token →
    t.pipeline.redis.recovery v = some token
  /-- a token whose rebuild has succeeded rebuilds nothing again -/
  once : ∀ {v token i bs j w t}, RebuildsWith v token i s →
    run (step rejects batchSize) s (.advance i :: bs) = some t → ¬RebuildsWith w token j t

/-- **Nothing is reserved while the key is held.** -/
theorem no_reservation {bs cs : List Action} {c : SeckillCall} {u w : State}
    (hs : Consistent rejects s) (hc : c.voucherId = v)
    (hlock : run (step rejects batchSize) s (.lock i token :: bs) = some u)
    (hrest : run (step rejects batchSize) u (.pipeline (.seckill c) :: cs) = some w)
    (hrebuild : RebuildsWith v token i w) : (seckillLua c u.pipeline.redis).1 ≠ 0 := by
  obtain ⟨l, hl, hbs⟩ := run_cons.mp hlock
  have hdrawn : token ∈ u.tokens := by
    have hl' : token ∈ l.tokens := by
      simp only [step] at hl
      split at hl
      · split at hl <;> cases hl
        exact Finset.mem_insert_self _ _
      · exact absurd hl (by simp)
    exact run_invariant' (I := fun s => token ∈ s.tokens)
      (fun _ _ _ h hstep => tokens_step hstep h) hl' hbs
  have hu := consistent_run hs hlock
  -- a key lost by now would still be lost at the rebuild
  have hheld : u.pipeline.redis.recovery v = some token := by
    by_contra hgone
    exact (lost_run hu ⟨hdrawn, hgone⟩ hrest).gone hrebuild.held
  rcases seckillLua_cases c u.pipeline.redis with ⟨hcode, -⟩ | ⟨-, n, -, -, -, hopen, -⟩
  · exact hcode
  · rw [hc] at hopen
    exact absurd (hopen.symm.trans hheld) (by simp)

/-- The command of a call that does not have its key writes its staging set at most. -/
theorem advance_without_key {c : Rebuild} {redis : Redis} {db : Db}
    (hgone : redis.recovery c.voucherId ≠ some c.token) :
    (c.advance batchSize redis db).1.stock = redis.stock ∧
      (c.advance batchSize redis db).1.purchased = redis.purchased ∧
      (c.advance batchSize redis db).1.recovery = redis.recovery := by
  cases c.advance_writes batchSize redis db with
  | nothing same =>
    rw [same]
    exact ⟨rfl, rfl, rfl⟩
  | staged staging write =>
    rw [write]
    exact ⟨rfl, rfl, rfl⟩
  | rebuilt _ _ held _ => exact absurd held hgone
  | unlocked held _ => exact absurd held hgone

/-- The call that has rebuilt is over, and no other call has its token. -/
theorem spent_of_rebuild (hs : Consistent rejects s) (h : RebuildsWith v token i s)
    (hstep : step rejects batchSize s (.advance i) = some t) : Drawn token (fun _ => False) t := by
  obtain ⟨n, expectedStock, hc, hreply⟩ := h
  have hdone : (Rebuild.advance batchSize ⟨v, n, token, .writing [] expectedStock⟩
      s.pipeline.redis s.pipeline.db).2 = .done := by
    simp [Rebuild.advance, hreply]
  simp only [step, hc, Option.some.injEq, hdone] at hstep
  subst hstep
  refine ⟨hs.drawn i _ hc, fun j d hd htoken => ?_⟩
  by_cases hj : j = i
  · subst hj
    exact absurd hd (by simp [Recon.after])
  · have hd : (s.recons j).current = some d := by simpa [hj] using hd
    exact hj (hs.distinct j i d _ hd hc htoken)

/-- **The recovery key fences reservations out of a rebuild**, in every state any number of
reconcilers and the pipeline can reach, with keys expiring at any moment. -/
theorem recovery_key_fences (rejects : Reservation → Bool) (batchSize : ℕ) {s₀ s : State}
    {as : List Action} (hstart : Start rejects s₀)
    (hrun : run (step rejects batchSize) s₀ as = some s) : Fences rejects batchSize s := by
  have hs : Consistent rejects s := consistent_run hstart.consistent hrun
  refine ⟨fun hc hlock hrest hrebuild => no_reservation hs hc hlock hrest hrebuild, ?_, ?_, ?_⟩
  · intro i c bs d u w hc hgone hbs hd htoken hstep
    have hu : Lost c.voucherId c.token u := lost_run hs ⟨hs.drawn i c hc, hgone⟩ hbs
    simp only [step, hd, Option.some.injEq] at hstep
    subst hstep
    have hv : d.voucherId = c.voucherId := (drawn_run (hs.drawn_current hc) hbs).calls i d hd htoken
    exact advance_without_key (by rw [htoken, hv]; exact hu.gone)
  · intro i c t v token hc hstep hheld hne
    simp only [step, hc, Option.some.injEq] at hstep
    subst hstep
    rcases writes_recovery (c.advance_writes batchSize s.pipeline.redis s.pipeline.db) v with
      hsame | ⟨rfl, hown, -⟩
    · exact hsame.trans hheld
    · exact absurd (Option.some.inj (hheld.symm.trans hown)) hne
  · rintro v token i bs j w t hrebuild hall ⟨n, expectedStock, hc, -⟩
    obtain ⟨u, hu, hbs⟩ := run_cons.mp hall
    exact (drawn_run (spent_of_rebuild hs hrebuild hu) hbs).calls j _ hc rfl

/-- Two reconcilers of one voucher: the key of the first expires before its rebuild, the second
takes it over. -/
def takenOver : List Action :=
  [.list 0 [7], .lock 0 ['t']] ++ List.replicate 10 (.advance 0) ++
    [.expire 7, .list 1 [7], .lock 1 ['u'], .advance 0, .pipeline (buy 3 8)]

theorem recovery_key_fences_taken_over :
    ∃ s, run (step (fun _ => false) 2) (calm sold) takenOver = some s ∧
      Fences (fun _ => false) 2 s := by
  obtain ⟨s, hs⟩ := Option.isSome_iff_exists.mp
    (show (run (step (fun _ => false) 2) (calm sold) takenOver).isSome = true by decide +kernel)
  exact ⟨s, hs, recovery_key_fences (fun _ => false) 2 (start_calm run_sold) hs⟩

end Hmdp.Reconcile
