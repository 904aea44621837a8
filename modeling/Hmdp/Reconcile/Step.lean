import Hmdp.Model.Reconciliation
import Hmdp.Pipeline.Fence

/-!
# Reconciliation over the running pipeline

Any number of reconcilers run beside the pipeline: each reads the vouchers once and then rebuilds
them one by one. A select or a Redis command of a reconciler is one step, and so is everything the
pipeline does in between. A reconciler may die anywhere, and every command may throw. A token is a
fresh UUID.

Three kinds of keys run out, at any moment: a recovery key; a staging set that has been given its
`EXPIRE`, after which the next batch starts a new one that never does; and `seckill:order:<v>` where
it was such a staging set, since `RENAME` keeps the expiry time and nothing takes it away. A set
without members is no key, so it has no expiry time either.

The lease of the whole round, `seckill:recovery:all`, is left out: it may expire too, and
`reconcileVoucher` can be called without it.

`Holds` says that the call still has its recovery key. It is lost by expiry, unlocking or
rebuilding, and never comes back, since nobody else has its token.
-/

namespace Hmdp.Reconcile

open Hmdp.Lib Hmdp.Model Hmdp.Pipeline

/-- A reconciler: what is left of its list of vouchers, with the stock read along with them, and
the call it is in. -/
structure Recon where
  todo : List (VoucherId × ℤ)
  current : Option Rebuild

/-- The process is not at work. -/
def Recon.idle : Recon := ⟨[], none⟩

/-- The pipeline and the reconciliation processes. -/
structure State where
  pipeline : Pipeline.State
  recons : ℕ → Recon
  /-- the tokens drawn so far -/
  tokens : Finset Text
  /-- the staging sets that have an expiry time -/
  stagingExpires : VoucherId → Text → Bool
  /-- the sets `seckill:order:<v>` that have one -/
  orderExpires : VoucherId → Bool

/-- The steps of the pipeline, those of a reconciliation, and the expiries of its keys. -/
inductive Action where
  | pipeline (action : Pipeline.Action)
  /-- `voucherService.list()`; a voucher without a stock is skipped -/
  | list (process : ℕ) (voucherIds : List VoucherId)
  | lock (process : ℕ) (token : Text)
  | advance (process : ℕ)
  | fail (process : ℕ)
  | stop (process : ℕ)
  /-- a recovery key -/
  | expire (voucherId : VoucherId)
  | expireStaging (voucherId : VoucherId) (token : Text)
  | expireOrder (voucherId : VoucherId)

/-- The pipeline with another Redis. -/
def State.withRedis (s : State) (redis : Redis) : State :=
  { s with pipeline := { s.pipeline with redis := redis } }

/-- A process moves. -/
def State.withRecon (s : State) (i : ℕ) (recon : Recon) : State :=
  { s with recons := Function.update s.recons i recon }

/-- The expiry times of the sets change. -/
def State.withExpiry (s : State) (stagingExpires : VoucherId → Text → Bool)
    (orderExpires : VoucherId → Bool) : State :=
  { s with stagingExpires, orderExpires }

@[simp] theorem State.withRecon_self (s : State) (i : ℕ) (recon : Recon) :
    (s.withRecon i recon).recons i = recon := by
  simp [State.withRecon]

@[simp] theorem State.withRecon_of_ne (s : State) {i j : ℕ} (h : j ≠ i) (recon : Recon) :
    (s.withRecon i recon).recons j = s.recons j := by
  simp [State.withRecon, h]

@[simp] theorem State.withRedis_recons (s : State) (redis : Redis) :
    (s.withRedis redis).recons = s.recons := rfl

@[simp] theorem State.withExpiry_recons (s : State) (stagingExpires : VoucherId → Text → Bool)
    (orderExpires : VoucherId → Bool) :
    (s.withExpiry stagingExpires orderExpires).recons = s.recons := rfl

/-- Whether the staging set of the call has an expiry time after a command that leaves `redis`:
`EXPIRE` gives it one. -/
def State.expiryOfStaging (s : State) (c : Rebuild) (redis : Redis) : Bool :=
  (redis.staging c.voucherId c.token).isSome &&
    match c.phase with
    | .sentinelAdded _ _ => true
    | _ => s.stagingExpires c.voucherId c.token

/-- Whether `seckill:order:<v>` has one after the command of the call: `RENAME` keeps that of the
staging set. -/
def State.expiryOfOrder (s : State) (c : Rebuild) : Bool :=
  match c.phase with
  | .writing [] _ =>
    if s.pipeline.redis.recovery c.voucherId = some c.token then
      decide (s.pipeline.redis.staged c.voucherId c.token ≠ ∅) &&
        s.stagingExpires c.voucherId c.token
    else s.orderExpires c.voucherId
  | _ => s.orderExpires c.voucherId

/-- The sets whose last user a step of the pipeline has taken out are gone, with their expiry
times. -/
def State.withPipeline (s : State) (p : Pipeline.State) : State :=
  { s with
    pipeline := p
    orderExpires := fun v => s.orderExpires v && decide (p.redis.purchased v ≠ ∅) }

/-- The reconciler after a command of its call. -/
def Recon.after (recon : Recon) (c : Rebuild) : Progress → Recon
  | .next phase => { recon with current := some { c with phase := phase } }
  | .done => { recon with current := none }
  | .thrown => Recon.idle

@[simp] theorem State.withPipeline_pipeline (s : State) (p : Pipeline.State) :
    (s.withPipeline p).pipeline = p := rfl

/-- One step; `none` where the action is not enabled. -/
def step (rejects : Reservation → Bool) (batchSize : ℕ) (s : State) : Action → Option State
  | .pipeline action =>
    (Pipeline.step rejects s.pipeline action).map s.withPipeline
  | .list i voucherIds =>
    match s.recons i with
    | ⟨[], none⟩ =>
      let vouchers := voucherIds.filterMap fun v => (s.pipeline.db.stock v).map fun n => (v, n)
      some (s.withRecon i ⟨vouchers, none⟩)
    | _ => none
  | .lock i token =>
    match s.recons i with
    | ⟨(v, n) :: todo, none⟩ =>
      if token ∈ s.tokens then none
      else
        let locked := lockRecovery v token s.pipeline.redis
        let call := if locked.1 then some ⟨v, n, token, .locked⟩ else none
        some { (s.withRedis locked.2).withRecon i ⟨todo, call⟩ with
          tokens := insert token s.tokens }
    | _ => none
  | .advance i =>
    match (s.recons i).current with
    | none => none
    | some c =>
      let next := c.advance batchSize s.pipeline.redis s.pipeline.db
      let stagingExpires := Function.update s.stagingExpires c.voucherId
        (Function.update (s.stagingExpires c.voucherId) c.token (s.expiryOfStaging c next.1))
      let orderExpires := Function.update s.orderExpires c.voucherId (s.expiryOfOrder c)
      some (((s.withRedis next.1).withRecon i ((s.recons i).after c next.2)).withExpiry
        stagingExpires orderExpires)
  | .fail i =>
    match (s.recons i).current with
    | none => none
    | some c => some (s.withRecon i ((s.recons i).after c c.phase.throw))
  | .stop i => some (s.withRecon i Recon.idle)
  | .expire v =>
    some (s.withRedis { s.pipeline.redis with
      recovery := Function.update s.pipeline.redis.recovery v none })
  | .expireStaging v token =>
    if s.stagingExpires v token then
      some ((s.withRedis (s.pipeline.redis.setStaging v token none)).withExpiry
        (Function.update s.stagingExpires v (Function.update (s.stagingExpires v) token false))
        s.orderExpires)
    else none
  | .expireOrder v =>
    if s.orderExpires v then
      some ((s.withRedis { s.pipeline.redis with
        purchased := Function.update s.pipeline.redis.purchased v ∅ }).withExpiry s.stagingExpires
          (Function.update s.orderExpires v false))
    else none

/-- No reconciler runs, and the recovery keys hold no token that is still to be drawn. -/
structure Start (rejects : Reservation → Bool) (s : State) : Prop where
  coherent : Coherent rejects s.pipeline
  idle : ∀ i, s.recons i = Recon.idle
  known : ∀ v token, s.pipeline.redis.recovery v = some token → token ∈ s.tokens

/-- The call has its recovery key. -/
def Holds (s : State) (c : Rebuild) : Prop :=
  s.pipeline.redis.recovery c.voucherId = some c.token

/-- The next step of reconciler `i` is a rebuild script of `v` that returns 1. -/
def rebuilds (v : VoucherId) (i : ℕ) (s : State) : Bool :=
  match (s.recons i).current with
  | some ⟨w, _, token, .writing [] expectedStock⟩ =>
    decide (w = v) && decide ((rebuildLua v token expectedStock s.pipeline.redis).1 = 1)
  | _ => false

theorem rebuilds_eq_true {v : VoucherId} {i : ℕ} {s : State} (h : rebuilds v i s = true) :
    ∃ n token expectedStock, (s.recons i).current = some ⟨v, n, token, .writing [] expectedStock⟩ ∧
      s.pipeline.redis.recovery v = some token := by
  unfold rebuilds at h
  split at h
  · rename_i w n token expectedStock hc
    simp only [Bool.and_eq_true, decide_eq_true_eq] at h
    obtain ⟨rfl, hreply⟩ := h
    refine ⟨n, token, expectedStock, hc, ?_⟩
    rcases rebuildLua_cases w token expectedStock s.pipeline.redis with ⟨-, heq⟩ | ⟨hheld, -⟩
    · rw [heq] at hreply
      exact absurd hreply (by simp)
    · exact hheld
  · exact absurd h (by simp)

/-! ## Tokens -/

/-- **The invariant** of the tokens: each was drawn, and no two calls have the same. -/
structure Consistent (rejects : Reservation → Bool) (s : State) : Prop where
  coherent : Coherent rejects s.pipeline
  known : ∀ v token, s.pipeline.redis.recovery v = some token → token ∈ s.tokens
  drawn : ∀ i c, (s.recons i).current = some c → c.token ∈ s.tokens
  distinct : ∀ i j c d, (s.recons i).current = some c → (s.recons j).current = some d →
    c.token = d.token → i = j

variable {rejects : Reservation → Bool} {batchSize : ℕ} {s t : State}

theorem Start.consistent (h : Start rejects s) : Consistent rejects s where
  coherent := h.coherent
  known := h.known
  drawn i c hc := by
    rw [h.idle i] at hc
    exact absurd hc (by simp [Recon.idle])
  distinct i j c d hc := by
    rw [h.idle i] at hc
    exact absurd hc (by simp [Recon.idle])

/-- The call a reconciler is in after a command has the voucher and the token it had. -/
theorem Recon.after_current {recon : Recon} {c d : Rebuild} {progress : Progress}
    (h : (recon.after c progress).current = some d) :
    ∃ phase, progress = .next phase ∧ d = { c with phase := phase } := by
  cases progress with
  | next phase => exact ⟨phase, rfl, (Option.some.inj h).symm⟩
  | done => exact absurd h (by simp [Recon.after])
  | thrown => exact absurd h (by simp [Recon.after, Recon.idle])

namespace Consistent

/-- **A reconciler moves on** within its call, or leaves it. -/
theorem withRecon (h : Consistent rejects s) (i : ℕ) {recon : Recon}
    (hr : ∀ d, recon.current = some d →
      ∃ c, (s.recons i).current = some c ∧ d.token = c.token) :
    Consistent rejects (s.withRecon i recon) := by
  -- every call of the new state has the token of a call of the old one
  have hold : ∀ j d, ((s.withRecon i recon).recons j).current = some d →
      ∃ c, (s.recons j).current = some c ∧ d.token = c.token := by
    intro j d hd
    by_cases hj : j = i
    · subst hj
      exact hr d (by simpa using hd)
    · exact ⟨d, by simpa [hj] using hd, rfl⟩
  refine ⟨h.coherent, h.known, fun j d hd => ?_, fun j k d e hd he hde => ?_⟩
  · obtain ⟨c, hc, htoken⟩ := hold j d hd
    rw [htoken]
    exact h.drawn j c hc
  · obtain ⟨c, hc, hdc⟩ := hold j d hd
    obtain ⟨c', hc', hec⟩ := hold k e he
    exact h.distinct j k c c' hc hc' (hdc.symm.trans (hde.trans hec))

/-- **A write to the keys of the reconciliation** that adds no recovery key. -/
theorem withRedis (h : Consistent rejects s) {redis : Redis}
    (handoff : redis.handoff = s.pipeline.redis.handoff)
    (quarantine : redis.quarantine = s.pipeline.redis.quarantine)
    (accepted : redis.accepted = s.pipeline.redis.accepted)
    (recovery : ∀ v token, redis.recovery v = some token →
      s.pipeline.redis.recovery v = some token) :
    Consistent rejects (s.withRedis redis) where
  coherent := h.coherent.of_redis handoff quarantine accepted
  known v token hv := h.known v token (recovery v token hv)
  drawn := h.drawn
  distinct := h.distinct

theorem withExpiry (h : Consistent rejects s) (stagingExpires : VoucherId → Text → Bool)
    (orderExpires : VoucherId → Bool) :
    Consistent rejects (s.withExpiry stagingExpires orderExpires) :=
  ⟨h.coherent, h.known, h.drawn, h.distinct⟩

/-- **A call begins**, or finds the voucher locked. -/
theorem lock (h : Consistent rejects s) {i : ℕ} {v : VoucherId} {n : ℤ} {token : Text}
    {todo : List (VoucherId × ℤ)} (hfresh : token ∉ s.tokens) :
    Consistent rejects { (s.withRedis (lockRecovery v token s.pipeline.redis).2).withRecon i
        ⟨todo, if (lockRecovery v token s.pipeline.redis).1 then some ⟨v, n, token, .locked⟩
          else none⟩ with tokens := insert token s.tokens } := by
  rcases lockRecovery_cases v token s.pipeline.redis with ⟨-, heq⟩ | ⟨-, heq⟩
  · rw [heq]
    have hidle := @withRecon _ _ h i ⟨todo, none⟩ (by simp)
    exact ⟨hidle.coherent, fun w tok hw => Finset.mem_insert_of_mem (hidle.known w tok hw),
      fun j d hd => Finset.mem_insert_of_mem (hidle.drawn j d hd), hidle.distinct⟩
  · rw [heq]
    -- a call of the new state is the new one or an old one, whose token is not the new one
    have hcall : ∀ j d, (Function.update s.recons i ⟨todo, some ⟨v, n, token, .locked⟩⟩ j).current =
        some d → (j = i ∧ d.token = token) ∨ (j ≠ i ∧ (s.recons j).current = some d) := by
      intro j d hd
      by_cases hj : j = i
      · subst hj
        rw [Function.update_self, Option.some.injEq] at hd
        exact Or.inl ⟨rfl, hd ▸ rfl⟩
      · exact Or.inr ⟨hj, by rwa [Function.update_of_ne hj] at hd⟩
    have hne : ∀ j d, (s.recons j).current = some d → d.token ≠ token := by
      rintro j d hd rfl
      exact hfresh (h.drawn j d hd)
    refine ⟨h.coherent.of_redis rfl rfl rfl, fun w tok hw => ?_, fun j d hd => ?_,
      fun j k d e hd he hde => ?_⟩
    · by_cases hwv : w = v
      · subst hwv
        have : token = tok := by simpa [State.withRecon, State.withRedis] using hw
        exact this ▸ Finset.mem_insert_self token s.tokens
      · exact Finset.mem_insert_of_mem
          (h.known w tok (by simpa [State.withRecon, State.withRedis, hwv] using hw))
    · rcases hcall j d hd with ⟨-, htoken⟩ | ⟨-, hd⟩
      · exact htoken ▸ Finset.mem_insert_self d.token s.tokens
      · exact Finset.mem_insert_of_mem (h.drawn j d hd)
    · rcases hcall j d hd with ⟨hj, hdt⟩ | ⟨-, hold⟩
      · rcases hcall k e he with ⟨hk, -⟩ | ⟨-, hold'⟩
        · exact hj.trans hk.symm
        · exact absurd (hde.symm.trans hdt) (hne k e hold')
      · rcases hcall k e he with ⟨-, het⟩ | ⟨-, hold'⟩
        · exact absurd (hde.trans het) (hne j d hold)
        · exact h.distinct j k d e hold hold' hde

end Consistent

/-- What a command of a call leaves of the recovery keys. -/
theorem recovery_erase {redis : Redis} {v w : VoucherId} {token : Text}
    (h : Function.update redis.recovery v none w = some token) :
    w ≠ v ∧ redis.recovery w = some token := by
  by_cases hw : w = v
  · subst hw
    exact absurd h (by simp)
  · exact ⟨hw, by simpa [hw] using h⟩

/-- **Every step keeps the tokens apart.** -/
theorem consistent_step {a : Action} (h : Consistent rejects s)
    (hstep : step rejects batchSize s a = some t) : Consistent rejects t := by
  cases a with
  | pipeline action =>
    obtain ⟨p, hp, rfl⟩ := Option.map_eq_some_iff.mp hstep
    refine ⟨coherent_step h.coherent hp, fun v token hv => ?_, h.drawn, h.distinct⟩
    rw [State.withPipeline_pipeline, (step_recovery h.coherent hp).1] at hv
    exact h.known v token hv
  | list i voucherIds =>
    simp only [step] at hstep
    split at hstep <;> cases hstep
    exact h.withRecon i (by simp)
  | lock i token =>
    simp only [step] at hstep
    split at hstep
    · rename_i v n todo hi
      split at hstep
      · exact absurd hstep (by simp)
      rename_i hfresh
      cases hstep
      exact h.lock hfresh
    · exact absurd hstep (by simp)
  | advance i =>
    simp only [step] at hstep
    split at hstep
    · exact absurd hstep (by simp)
    rename_i c hc
    cases hstep
    have hredis : Consistent rejects
        (s.withRedis (c.advance batchSize s.pipeline.redis s.pipeline.db).1) := by
      cases c.advance_writes batchSize s.pipeline.redis s.pipeline.db with
      | nothing same =>
        rw [same]
        exact h
      | staged staging write =>
        rw [write]
        exact h.withRedis rfl rfl rfl fun _ _ hv => hv
      | rebuilt expectedStock _ _ write =>
        rw [write]
        exact h.withRedis rfl rfl rfl fun _ _ hv => (recovery_erase hv).2
      | unlocked _ write =>
        rw [write]
        exact h.withRedis rfl rfl rfl fun _ _ hv => (recovery_erase hv).2
    refine (hredis.withRecon i fun d hd => ⟨c, hc, ?_⟩).withExpiry _ _
    obtain ⟨phase, -, rfl⟩ := Recon.after_current hd
    rfl
  | fail i =>
    simp only [step] at hstep
    split at hstep
    · exact absurd hstep (by simp)
    rename_i c hc
    cases hstep
    refine h.withRecon i fun d hd => ⟨c, hc, ?_⟩
    obtain ⟨phase, -, rfl⟩ := Recon.after_current hd
    rfl
  | stop i =>
    cases hstep
    exact h.withRecon i (by simp [Recon.idle])
  | expire v =>
    cases hstep
    exact h.withRedis rfl rfl rfl fun _ _ hv => (recovery_erase hv).2
  | expireStaging v token =>
    simp only [step] at hstep
    split at hstep <;> cases hstep
    refine Consistent.withExpiry ?_ _ _
    exact h.withRedis rfl rfl rfl fun _ _ hv => hv
  | expireOrder v =>
    simp only [step] at hstep
    split at hstep <;> cases hstep
    refine Consistent.withExpiry ?_ _ _
    exact h.withRedis rfl rfl rfl fun _ _ hv => hv

/-! ## Runs of one reconciler -/

/-- Only reconciler 0 runs, and the pipeline only while it is in no call; `check` is asked at each
command of its call. -/
def solo (check : State → Rebuild → Bool) (s : State) : Action → Bool
  | .pipeline _ => (s.recons 0).current.isNone
  | .list i _ => decide (i = 0)
  | .lock i _ => decide (i = 0)
  | .advance i => decide (i = 0) && (s.recons 0).current.all (check s)
  | _ => false

/-- The other reconcilers are in no call. -/
def OthersIdle (s : State) : Prop := ∀ i, i ≠ 0 → (s.recons i).current = none

theorem othersIdle_step {check : State → Rebuild → Bool} {a : Action}
    (ha : solo check s a = true) (h : OthersIdle s) (hstep : step rejects batchSize s a = some t) :
    OthersIdle t := by
  intro j hj
  cases a with
  | pipeline action =>
    obtain ⟨p, -, rfl⟩ := Option.map_eq_some_iff.mp hstep
    exact h j hj
  | list i voucherIds =>
    have hi : i = 0 := by simpa [solo] using ha
    simp only [step] at hstep
    split at hstep <;> cases hstep
    rw [State.withRecon_of_ne s (hi ▸ hj)]
    exact h j hj
  | lock i token =>
    have hi : i = 0 := by simpa [solo] using ha
    simp only [step] at hstep
    split at hstep
    · split at hstep <;> cases hstep
      rw [State.withRecon_of_ne _ (hi ▸ hj)]
      exact h j hj
    · exact absurd hstep (by simp)
  | advance i =>
    simp only [solo, Bool.and_eq_true, decide_eq_true_eq] at ha
    simp only [step] at hstep
    split at hstep <;> cases hstep
    rw [State.withExpiry_recons, State.withRecon_of_ne _ (ha.1 ▸ hj)]
    exact h j hj
  | fail i => exact absurd ha (by simp [solo])
  | stop i => exact absurd ha (by simp [solo])
  | expire w => exact absurd ha (by simp [solo])
  | expireStaging w token => exact absurd ha (by simp [solo])
  | expireOrder w => exact absurd ha (by simp [solo])

/-- No reconciler runs. -/
def calm (p : Pipeline.State) : State :=
  ⟨p, fun _ => Recon.idle, ∅, fun _ _ => false, fun _ => false⟩

/-- A reconciliation may start after any run of the pipeline. -/
theorem start_calm {n : ℤ} {as : List Pipeline.Action} {p : Pipeline.State}
    (hrun : run (Pipeline.step rejects) (onSale n) as = some p) : Start rejects (calm p) := by
  obtain ⟨hp, hopen⟩ := run_invariant'
    (I := fun p => Coherent rejects p ∧ ∀ v, p.redis.recovery v = none)
    (fun _ _ _ hs hstep => ⟨coherent_step hs.1 hstep, fun v => by
      rw [(step_recovery hs.1 hstep).1]
      exact hs.2 v⟩) ⟨(start_onSale n).coherent, fun _ => rfl⟩ hrun
  refine ⟨hp, fun _ => rfl, fun v token hv => ?_⟩
  rw [show (calm p).pipeline.redis.recovery v = none from hopen v] at hv
  exact absurd hv (by simp)

/-- One order in the outbox and one in the handoff set. -/
def sold : Pipeline.State :=
  (run (Pipeline.step fun _ => false) (onSale 10)
    (buy 1 5 :: relayOne ++ [.send (rowOf 1 1 5) true, buy 2 6])).get (by decide +kernel)

theorem run_sold : run (Pipeline.step fun _ => false) (onSale 10)
    (buy 1 5 :: relayOne ++ [.send (rowOf 1 1 5) true, buy 2 6]) = some sold :=
  (Option.some_get _).symm

/-- The reconciler reads the list, locks the voucher and does the rest without a pause, up to the
rebuild script. -/
def rebuildAtOnce : List Action := [.list 0 [7], .lock 0 ['t']] ++ List.replicate 10 (.advance 0)

end Hmdp.Reconcile
