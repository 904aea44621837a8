import Hmdp.Reconcile.Count

/-!
# The stock a reconciliation writes

From a balanced voucher the stock to find is the Redis stock itself: while a call has its recovery
key, the Redis stock, what the call has counted and what it still has to look up make up the stock
it was given, so what it writes at the end is the Redis stock as it is, and the balance of the
voucher is not touched.

* **`balance_kept`**: in a run whose steps leave the calls undisturbed, every state is balanced, in
  particular the state after a rebuild.
* **`rebuild_oversells`**: in general not. A consumer transaction between the list and the lock
  gives its units back to Redis.
-/

namespace Hmdp.Reconcile

open Hmdp.Lib Hmdp.Model Hmdp.Pipeline

variable {rejects : Reservation → Bool} {batchSize : ℕ} {v : VoucherId}

/-- The Redis stock as the stock to find. -/
def redisStock (v : VoucherId) (p : Pipeline.State) : Option ℤ := p.redis.stock v

theorem target_redisStock : Target rejects redisStock where
  step hs hstep hfence hcancel := by
    refine fenced_stock hs hstep hfence fun i order ha hi hv => ?_
    by_contra hne
    exact hcancel ⟨i, order, ha, hi, hv, hne⟩
  frame _ _ stock := stock

/-- In a balanced voucher it is the MySQL stock less the outstanding orders. -/
theorem redisStock_of_balanced {p : Pipeline.State} {S : ℤ} (hb : Balanced v p)
    (hstock : p.db.stock v = some S) :
    redisStock v p = some (S - (outstandingIds v p).card) := by
  obtain ⟨r, S', hc⟩ := balanced_iff.mp hb
  have hS : S' = S := Option.some.inj (hc.mysql.symm.trans hstock)
  have hbalance := hc.balance
  refine hc.redis.trans (congrArg some ?_)
  omega

/-! ## The balance -/

variable {s t : State}

theorem balanced_withRedis {p : Pipeline.State} {redis : Redis} (h : Balanced v p)
    (stock : redis.stock v = p.redis.stock v) (handoff : redis.handoff = p.redis.handoff)
    (quarantine : redis.quarantine = p.redis.quarantine) :
    Balanced v { p with redis := redis } := by
  obtain ⟨l, ⟨hfree, hheld, hstock⟩, hl⟩ := h
  refine ⟨l, ⟨stock.trans hfree, ?_, hstock⟩, hl⟩
  rw [hheld]
  simp only [outstandingIds, outstanding, handoffReservations, quarantineReservations, handoff,
    quarantine]

/-- The balance of `v`, and the counts of the calls of `v`. -/
structure Sound (rejects : Reservation → Bool) (v : VoucherId) (s : State) : Prop where
  consistent : Consistent rejects s
  balanced : Balanced v s.pipeline
  counted : Held (Counted redisStock) v s

/-- **A rebuild writes the stock that is there.** -/
theorem balanced_advance (h : Sound rejects v s) {i : ℕ} {c : Rebuild} {redis : Redis}
    (hc : (s.recons i).current = some c) (hw : c.Writes s.pipeline.redis redis) :
    Balanced v { s.pipeline with redis := redis } := by
  cases hw with
  | nothing same =>
    subst same
    exact h.balanced
  | staged staging write =>
    subst write
    exact balanced_withRedis h.balanced rfl rfl rfl
  | rebuilt expectedStock phase held write =>
    subst write
    refine balanced_withRedis h.balanced ?_ rfl rfl
    by_cases hv : c.voucherId = v
    · have hcounted := h.counted i c hc hv held
      unfold Counted at hcounted
      rw [phase] at hcounted
      obtain ⟨r, S, hconserved⟩ := balanced_iff.mp h.balanced
      obtain ⟨n, hn, hmax⟩ := Option.map_eq_some_iff.mp hcounted
      have hr : r = n := Option.some.inj (hconserved.redis.symm.trans (hv ▸ hn))
      have hnonneg := hconserved.redis_nonneg
      have hsame : expectedStock = r := by omega
      rw [← hv] at hconserved ⊢
      rw [hconserved.redis, hsame]
      exact Function.update_self _ _ _
    · exact Function.update_of_ne (Ne.symm hv) _ _
  | unlocked _ write =>
    subst write
    exact balanced_withRedis h.balanced rfl rfl rfl

theorem balanced_undisturbed {a : Action} (h : Sound rejects v s)
    (hstep : step rejects batchSize s a = some t) : Balanced v t.pipeline := by
  cases a with
  | pipeline action =>
    obtain ⟨p, hp, rfl⟩ := Option.map_eq_some_iff.mp hstep
    exact balanced_step h.consistent.coherent h.balanced hp
  | list i voucherIds =>
    simp only [step] at hstep
    split at hstep <;> cases hstep
    exact h.balanced
  | lock i token =>
    simp only [step] at hstep
    split at hstep
    · rename_i w n todo hi
      split at hstep <;> cases hstep
      rcases lockRecovery_cases w token s.pipeline.redis with ⟨-, heq⟩ | ⟨-, heq⟩
      · rw [heq]
        exact h.balanced
      · rw [heq]
        exact balanced_withRedis h.balanced rfl rfl rfl
    · exact absurd hstep (by simp)
  | advance i =>
    simp only [step] at hstep
    split at hstep
    · exact absurd hstep (by simp)
    rename_i c hc
    cases hstep
    exact balanced_advance h hc (c.advance_writes batchSize s.pipeline.redis s.pipeline.db)
  | fail i =>
    simp only [step] at hstep
    split at hstep <;> cases hstep
    exact h.balanced
  | stop i =>
    cases hstep
    exact h.balanced
  | expire w =>
    cases hstep
    exact balanced_withRedis h.balanced rfl rfl rfl
  | expireStaging w token =>
    simp only [step] at hstep
    split at hstep <;> cases hstep
    exact balanced_withRedis h.balanced rfl rfl rfl
  | expireOrder w =>
    simp only [step] at hstep
    split at hstep <;> cases hstep
    exact balanced_withRedis h.balanced rfl rfl rfl

/-- **An undisturbed step** keeps the balance and the counts. -/
theorem sound_step {a : Action} (ha : Undisturbed rejects v s a) (h : Sound rejects v s)
    (hstep : step rejects batchSize s a = some t) : Sound rejects v t := by
  exact ⟨consistent_step h.consistent hstep, balanced_undisturbed h hstep,
    held_counted target_redisStock ha h.consistent
      (fun _ hstock => redisStock_of_balanced h.balanced hstock) h.counted hstep⟩

/-- **Reconciliation keeps the balance.** From a balanced voucher, in every run whose steps leave
the calls of the voucher undisturbed, every state is balanced; in particular the state after a
rebuild. -/
theorem balance_kept (rejects : Reservation → Bool) (batchSize : ℕ) (v : VoucherId) {r S : ℤ}
    {s t : State} {as : List Action} (hstart : Start rejects s)
    (hbalance : Conserved v s.pipeline r S)
    (hundisturbed : Along (step rejects batchSize) (Undisturbed rejects v) s as)
    (hrun : run (step rejects batchSize) s as = some t) :
    ∃ r S, Conserved v t.pipeline r S := by
  have hs : Sound rejects v s :=
    ⟨hstart.consistent, balanced_iff.mpr ⟨r, S, hbalance⟩, hstart.held⟩
  have ht := run_invariant (fun _ _ _ ha h hstep => sound_step ha h hstep) hundisturbed hs hrun
  exact balanced_iff.mp ht.balanced

theorem conserved_sold : ∃ r S, Conserved 7 sold r S := by
  have hfirst : Balanced 7 (onSale 10) := by
    refine balanced_iff.mpr ⟨10, 10, rfl, rfl, by omega, by omega, ?_⟩
    rw [(start_onSale 10).outstandingIds]
    rfl
  exact balanced_iff.mp (run_invariant'
    (I := fun p => Coherent (fun _ => false) p ∧ Balanced 7 p)
    (fun _ _ _ hs hstep => ⟨coherent_step hs.1 hstep, balanced_step hs.1 hs.2 hstep⟩)
    ⟨(start_onSale 10).coherent, hfirst⟩ run_sold).2

/-- The stock of the call is the MySQL stock when it reads the outbox. -/
def fresh (s : State) (c : Rebuild) : Bool :=
  match c.phase with
  | .locked => decide (s.pipeline.db.stock c.voucherId = some c.mysqlStock)
  | _ => true

theorem undisturbed_of_solo {a : Action}
    (hs : Consistent (fun _ => false) s ∧ OthersIdle s) (ha : solo fresh s a = true) :
    Undisturbed (fun _ => false) v s a := by
  refine ⟨fun q hq => ?_, ?_⟩
  · obtain ⟨r, -, -, -, hrej⟩ := hs.1.coherent.quarantine q hq
    exact absurd hrej (by simp)
  cases a with
  | pipeline action =>
    intro i c hc
    by_cases hi : i = 0
    · subst hi
      rw [Option.isNone_iff_eq_none.mp ha] at hc
      exact absurd hc (by simp)
    · rw [hs.2 i hi] at hc
      exact absurd hc (by simp)
  | advance i =>
    rintro c hc rfl - hphase
    simp only [solo, Bool.and_eq_true, decide_eq_true_eq] at ha
    obtain ⟨rfl, hcheck⟩ := ha
    rw [hc] at hcheck
    simpa [fresh, hphase] using hcheck
  | list i voucherIds => trivial
  | lock i token => trivial
  | fail i => trivial
  | stop i => trivial
  | expire w => trivial
  | expireStaging w token => trivial
  | expireOrder w => trivial

theorem undisturbed_at_once : Along (step (fun _ => false) 500)
    (Undisturbed (fun _ => false) 7) (calm sold) (rebuildAtOnce ++ [.advance 0]) := by
  refine along_mono (I := fun s => Consistent (fun _ => false) s ∧ OthersIdle s)
    (P := fun s a => solo fresh s a = true) (fun _ _ => undisturbed_of_solo) ?_
    ⟨(start_calm run_sold).consistent, fun _ _ => rfl⟩ (by decide +kernel)
  exact fun _ _ _ ha hs hstep => ⟨consistent_step hs.1 hstep, othersIdle_step ha hs.2 hstep⟩

theorem balance_kept_at_once :
    ∃ t u, run (step (fun _ => false) 500) (calm sold) rebuildAtOnce = some t ∧
      rebuilds 7 0 t = true ∧ step (fun _ => false) 500 t (.advance 0) = some u ∧
        ∃ r S, Conserved 7 u.pipeline r S := by
  have hres : (run (step (fun _ => false) 500) (calm sold) rebuildAtOnce).any (fun t =>
      rebuilds 7 0 t && (step (fun _ => false) 500 t (.advance 0)).isSome) = true := by
    decide +kernel
  obtain ⟨t, ht, hp⟩ := (Option.any_eq_true _ _).mp hres
  obtain ⟨hrebuilds, hsome⟩ := (Bool.and_eq_true _ _).mp hp
  obtain ⟨u, hu⟩ := Option.isSome_iff_exists.mp hsome
  obtain ⟨r, S, hc⟩ := conserved_sold
  exact ⟨t, u, ht, hrebuilds, hu, balance_kept (fun _ => false) 500 7 (start_calm run_sold) hc
    undisturbed_at_once (run_append.mpr ⟨t, ht, run_single.mpr hu⟩)⟩

/-- A consumer transaction runs between the list and the lock. -/
def rebuildFromOldList : List Action :=
  [.list 0 [7], .pipeline (.createOrders atZero [(rowOf 1 1 5).toMessage true]), .lock 0 ['t']] ++
    List.replicate 10 (.advance 0)

/-- **The law fails**: the reconciler has read the stock, the transaction takes a unit out of it,
and the order is no longer outstanding when the outbox is read, so the unit goes back to Redis. -/
theorem rebuild_oversells :
    ¬∀ (rejects : Reservation → Bool) (batchSize : ℕ) (v : VoucherId) (s t u : State)
      (as : List Action) (i : ℕ), Start rejects s → (∃ r S, Conserved v s.pipeline r S) →
      (∀ q ∈ s.pipeline.redis.quarantine, q.voucherId ≠ v) →
      run (step rejects batchSize) s as = some t →
      (∀ q ∈ t.pipeline.redis.quarantine, q.voucherId ≠ v) → rebuilds v i t = true →
      step rejects batchSize t (.advance i) = some u → ∃ r S, Conserved v u.pipeline r S := by
  intro h
  have hres : (run (step (fun _ => false) 500) (calm sold) rebuildFromOldList).any (fun t =>
      rebuilds 7 0 t && (step (fun _ => false) 500 t (.advance 0)).any fun u =>
        decide (t.pipeline.redis.quarantine = ∅ ∧ u.pipeline.redis.stock 7 = some 9 ∧
          u.pipeline.db.stock 7 = some 9 ∧ (outstandingIds 7 u.pipeline).card = 1)) = true := by
    decide +kernel
  obtain ⟨t, ht, hp⟩ := (Option.any_eq_true _ _).mp hres
  obtain ⟨hrebuilds, hafter⟩ := (Bool.and_eq_true _ _).mp hp
  obtain ⟨u, hu, hp⟩ := (Option.any_eq_true _ _).mp hafter
  obtain ⟨hquarantine, hredis, hmysql, hcard⟩ := of_decide_eq_true hp
  have hempty : sold.redis.quarantine = ∅ := by decide +kernel
  obtain ⟨r, S, hc⟩ := h _ _ 7 _ t u _ 0 (start_calm run_sold) conserved_sold
    (fun q hq => absurd (hempty ▸ hq : q ∈ (∅ : Finset QuarantineEntry)) (by simp)) ht
    (fun q hq => absurd (hquarantine ▸ hq : q ∈ (∅ : Finset QuarantineEntry)) (by simp))
    hrebuilds hu
  have hr : r = 9 := Option.some.inj (hc.redis.symm.trans hredis)
  have hS : S = 9 := Option.some.inj (hc.mysql.symm.trans hmysql)
  have hbalance := hc.balance
  rw [hcard, hr, hS] at hbalance
  omega

end Hmdp.Reconcile
