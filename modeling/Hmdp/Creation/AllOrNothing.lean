import Hmdp.Creation.Step

/-!
# Whether a creation is all or nothing for the buyers

`addSeckillVoucher` writes the stock and the hash before its commit, so `seckill.lua` sells the
voucher before it has a row. When the transaction is rolled back after that, the compensation
removes the two keys and nothing of what has been sold. A voucher without a row has just the keys
its creation has written (`Inv.keys`), so which calls sell it is known from the creation.

* **`all_or_nothing_iff`**: nothing of a voucher without a row has been sold in any state of a run
  iff all its steps are `Safe`, and nothing of a voucher has been sold at the end of a run that
  leaves it without a row iff they are.
* **`sold_and_rolled_back`**: a run that sells a voucher and rolls its creation back.
-/

namespace Hmdp.Creation

open Hmdp.Lib Hmdp.Model Hmdp.Pipeline Hmdp.Pipeline.Visible

variable {rejects : Reservation → Bool} {s t : State} {v : VoucherId}

/-! ## What is left of a sale -/

/-- `seckill.lua` has never answered 0 for the voucher, and nothing of an order for it is there. -/
structure Untouched (v : VoucherId) (p : Pipeline.State) : Prop where
  granted : ∀ r ∈ p.granted, r.voucherId ≠ v
  handoff : (p.redis.handoff v).members = []
  accepted : ∀ r : Reservation, r.voucherId = v →
    p.redis.accepted r.orderId ≠ some (acceptedValue r)
  purchased : p.redis.purchased v = ∅

/-- **The law**: a voucher without a row is untouched. -/
def AllOrNothing (v : VoucherId) (s : State) : Prop := ¬s.committed v → Untouched v s.pipeline

/-- No order has been accepted and nobody is in the purchased set. -/
structure Unsold (v : VoucherId) (p : Pipeline.State) : Prop where
  granted : ∀ r ∈ p.granted, r.voucherId ≠ v
  purchased : p.redis.purchased v = ∅

/-- The voucher of an accepted order is in its field. -/
theorem voucherId_of_acceptedValue {r r' : Reservation} (h : acceptedValue r = acceptedValue r') :
    r.voucherId = r'.voucherId := by
  have hsplit := splitOn_acceptedValue r
  rw [h, splitOn_acceptedValue r'] at hsplit
  simp only [List.cons.injEq, and_true] at hsplit
  exact (Long.toText_injective hsplit.2).symm

theorem Unsold.untouched {p : Pipeline.State} (hp : Coherent rejects p) (hf : Fields p)
    (h : Unsold v p) : Untouched v p where
  granted := h.granted
  handoff := by
    rw [List.eq_nil_iff_forall_not_mem]
    intro m hm
    obtain ⟨r, hr, hv, -⟩ := hp.handoff v m hm
    exact h.granted r hr hv
  accepted r hv hfield := by
    obtain ⟨r', hr', -, hvalue⟩ := hf _ _ hfield
    exact h.granted r' hr' ((voucherId_of_acceptedValue hvalue).symm.trans hv)
  purchased := h.purchased

/-! ## The pipeline and a voucher without a row -/

/-- Only `configure` writes a hash. -/
theorem step_activity {p q : Pipeline.State} {a : Pipeline.Action} (hs : s.admits a)
    (hstep : Pipeline.step rejects p a = some q) : q.redis.activity = p.redis.activity := by
  cases a with
  | configure activity accessToken => exact absurd hs (by simp [State.admits])
  | seckill c =>
    simp only [Pipeline.step] at hstep
    split at hstep
    · exact absurd hstep (by simp)
    cases hstep
    rcases seckillLua_cases c p.redis with ⟨-, heq⟩ | ⟨-, n, -, -, -, -, heq⟩ <;>
      simp only [heq]
    rfl
  | relayTask i =>
    simp only [Pipeline.step] at hstep
    split at hstep
    · exact absurd hstep (by simp)
    rename_i task rest hi
    split at hstep
    · cases hstep
      rfl
    rename_i hrun
    cases hstep
    rcases runTask_redis hrun with heq | ⟨w, m, reason, -, heq⟩ | ⟨w, events, members, -, heq⟩
    · rw [heq]
    · rcases handoffQuarantine_cases w m reason p.redis with ⟨-, hq⟩ | ⟨-, hq⟩ <;>
        simp only [heq, hq]
    · rw [heq, (handoffComplete_snd w _ p.redis).2]
  | completeHandoff r =>
    simp only [Pipeline.step] at hstep
    split at hstep
    · cases hstep
      simp only [completeHandoff]
      rw [(handoffComplete_snd _ _ p.redis).2]
    · exact absurd hstep (by simp)
  | cancel i =>
    simp only [Pipeline.step] at hstep
    split at hstep
    · exact absurd hstep (by simp)
    split at hstep
    · cases hstep
      rfl
    rename_i hc
    cases hstep
    obtain ⟨-, n, -, hredis⟩ := cancelCommitted_some hc
    simp only [hredis]
  | _ => rw [step_redis rfl hstep]

/-- The pipeline neither adds nor removes a row. -/
theorem step_row {p q : Pipeline.State} {a : Pipeline.Action} (hp : Coherent rejects p)
    (hstep : Pipeline.step rejects p a = some q) (v : VoucherId) :
    q.db.stock v = none ↔ p.db.stock v = none := by
  cases step_effect hp hstep with
  | quiet stores _ => rw [stores.dbStock]
  | reserved c n _ _ _ _ _ _ _ _ db _ => rw [db]
  | persisted tx messages os _ _ created _ _ =>
    rw [createOrders_stock created, Option.map_eq_none_iff]
  | cancelled i order n _ _ _ cancel _ _ _ =>
    obtain ⟨-, -, ⟨m, hm, hstock⟩, -⟩ := cancelInTransaction_some cancel
    rw [hstock]
    by_cases hv : v = order.voucherId
    · subst hv
      simp [hm]
    · rw [Function.update_of_ne hv]

/-- **While nothing of a voucher is sold**, the pipeline leaves its stock key alone. -/
theorem unsold_step {p q : Pipeline.State} {a : Pipeline.Action} (hp : Coherent rejects p)
    (h : Unsold v p)
    (ha : ∀ c, a = .seckill c → c.voucherId = v → (seckillLua c p.redis).1 ≠ 0)
    (hstep : Pipeline.step rejects p a = some q) :
    Unsold v q ∧ q.redis.stock v = p.redis.stock v := by
  cases step_effect hp hstep with
  | quiet stores granted =>
    exact ⟨⟨by rw [granted]; exact h.granted, by rw [stores.purchased]; exact h.purchased⟩,
      by rw [stores.stock]⟩
  | reserved c n action accepted _ _ _ _ _ redis _ granted =>
    have hv : v ≠ c.voucherId := fun hv => ha c action hv.symm accepted
    refine ⟨⟨fun r hr => ?_, ?_⟩, ?_⟩
    · rw [granted] at hr
      rcases List.mem_cons.mp hr with rfl | hr
      · exact Ne.symm hv
      · exact h.granted r hr
    · rw [redis]
      exact (Function.update_of_ne hv _ _).trans h.purchased
    · rw [redis]
      exact Function.update_of_ne hv _ _
  | persisted tx messages os _ _ _ redis granted =>
    exact ⟨⟨by rw [granted]; exact h.granted, by rw [redis]; exact h.purchased⟩, by rw [redis]⟩
  | cancelled i order n _ _ selected _ _ redis granted =>
    -- the order row of a cancellation is that of an accepted order
    have hv : v ≠ order.voucherId := by
      obtain ⟨row, hrow, -, -, hvoucher⟩ := selected
      obtain ⟨r, hr, -, -, hrv⟩ := hp.orders row hrow
      intro hv
      exact h.granted r (hp.granted_of_inOutbox hr) (by rw [hrv, hvoucher, hv])
    refine ⟨⟨by rw [granted]; exact h.granted, ?_⟩, ?_⟩
    · rw [redis]
      exact (Function.update_of_ne hv _ _).trans h.purchased
    · rw [redis]
      exact Function.update_of_ne hv _ _

/-! ## The keys of a voucher without a row -/

/-- The keys of the voucher are those its creation has written. -/
def Keys (v : VoucherId) (redis : Redis) : Option Call → Prop
  | none => redis.stock v = none ∧ redis.activity v = .absent
  | some call => call.creation.Keys v redis

/-- **The invariant**: before the commit nothing of the voucher has been sold, and its keys are
those the call has written. -/
structure Inv (rejects : Reservation → Bool) (v : VoucherId) (s : State) : Prop where
  coherent : Coherent rejects s.pipeline
  fields : Fields s.pipeline
  loads : ∀ i, s.loads i = some v → s.committed v
  keys : ¬s.committed v → Keys v s.pipeline.redis (s.creations v)
  unsold : ¬s.committed v → Unsold v s.pipeline

theorem Inv.allOrNothing (h : Inv rejects v s) : AllOrNothing v s := fun hv =>
  (h.unsold hv).untouched h.coherent h.fields

theorem Start.inv (h : Start s) (v : VoucherId) : Inv rejects v s where
  coherent := h.pipeline.coherent
  fields o value hvalue := absurd hvalue (by simp [h.pipeline.accepted])
  loads i hi := absurd hi (by simp [h.loads])
  keys hv := by
    rw [h.creations]
    exact ⟨h.stock v hv, h.activity v hv⟩
  unsold hv := ⟨fun r hr => absurd hr (by simp [h.pipeline.granted]), h.purchased v hv⟩

/-- **Which calls sell a voucher without a row.** -/
theorem seckillLua_sells {c : SeckillCall} (h : Inv rejects v s) (hc : c.voucherId = v)
    (hv : ¬s.committed v) : (seckillLua c s.pipeline.redis).1 = 0 ↔
      ∃ call ∈ s.creations v, Sells call.creation s.pipeline.redis c := by
  have hfirst : c.userId ∉ s.pipeline.redis.purchased c.voucherId := by
    rw [hc, (h.unsold hv).purchased]
    exact Finset.notMem_empty _
  have hkeys := h.keys hv
  rw [seckillLua_eq_zero]
  cases hcall : s.creations v with
  | none =>
    rw [hcall] at hkeys
    constructor
    · rintro ⟨-, -, ⟨n, hn, -⟩, -⟩
      rw [hc, hkeys.1] at hn
      exact absurd hn (by simp)
    · rintro ⟨call, hmem, -⟩
      exact absurd hmem (by simp)
  | some call =>
    rw [hcall] at hkeys
    have hstock := hkeys.stock
    have hactivity := hkeys.activity
    rw [← hc] at hstock hactivity
    simp only [Option.mem_def, Option.some.injEq, exists_eq_left', Sells]
    rw [hstock, hactivity]
    constructor
    · rintro ⟨hopen, ⟨b, e, hsale, hfrom, hto⟩, ⟨n, hn, hpos⟩, -, htoken⟩
      have hkey : call.creation.stockKey = true := by
        by_contra hkey
        rw [if_neg hkey] at hn
        exact absurd hn (by simp)
      have hhash : call.creation.hash = true := by
        by_contra hhash
        rw [if_neg hhash] at hsale
        exact absurd hsale (by simp [ActivityMeta.absent])
      rw [if_pos hkey] at hn
      rw [if_pos hhash] at hsale
      simp only [Activity.toMeta, ActivityMeta.mk.injEq, Option.some.injEq] at hsale
      obtain ⟨rfl, rfl, hone⟩ := hsale
      cases hn
      exact ⟨hkey, hhash, hpos, hone, hfrom, hto, hopen, htoken⟩
    · rintro ⟨hkey, hhash, hpos, hone, hfrom, hto, hopen, htoken⟩
      refine ⟨hopen, ⟨_, _, ?_, hfrom, hto⟩, ⟨_, if_pos hkey, hpos⟩, hfirst, htoken⟩
      rw [if_pos hhash, Activity.toMeta, hone]

/-! ## The steps -/

theorem not_committed : ¬s.committed v ↔ s.pipeline.db.stock v = none := not_not

theorem inv_pipeline {action : Pipeline.Action} (h : Inv rejects v s)
    (hsafe : Safe v s (.pipeline action))
    (hstep : step rejects s (.pipeline action) = some t) : Inv rejects v t := by
  simp only [step] at hstep
  split at hstep
  · rename_i hadmits
    obtain ⟨p, hp, rfl⟩ := Option.map_eq_some_iff.mp hstep
    have hrow := step_row h.coherent hp v
    have hunsold : ¬s.committed v →
        Unsold v p ∧ p.redis.stock v = s.pipeline.redis.stock v := by
      refine fun hv => unsold_step h.coherent (h.unsold hv) ?_ hp
      rintro c rfl hc hcode
      obtain ⟨call, hcall, hsells⟩ := (seckillLua_sells h hc hv).mp hcode
      exact hsafe hc hv call hcall hsells
    refine ⟨coherent_step h.coherent hp, fields_step h.coherent h.fields hp,
      fun i hi => fun hnone => h.loads i hi (hrow.mp hnone), fun hv => ?_, fun hv => ?_⟩
    · have hv' : ¬s.committed v := not_committed.mpr (hrow.mp (not_committed.mp hv))
      have hkeys := h.keys hv'
      have hstock := (hunsold hv').2
      have hactivity := congrFun (step_activity hadmits hp) v
      show Keys v p.redis (s.creations v)
      cases hcall : s.creations v with
      | none =>
        rw [hcall] at hkeys
        exact ⟨hstock.trans hkeys.1, hactivity.trans hkeys.2⟩
      | some call =>
        rw [hcall] at hkeys
        exact ⟨hstock.trans hkeys.stock, hactivity.trans hkeys.activity⟩
    · exact (hunsold (not_committed.mpr (hrow.mp (not_committed.mp hv)))).1
  · exact absurd hstep (by simp)

theorem inv_create {w : VoucherId} {request : Option Voucher} (h : Inv rejects v s)
    (hstep : step rejects s (.create w request) = some t) : Inv rejects v t := by
  simp only [step] at hstep
  split at hstep
  · exact absurd hstep (by simp)
  split at hstep
  · exact absurd hstep (by simp)
  rename_i hnone
  split at hstep
  · cases hstep
    exact h
  rename_i voucher _
  cases hstep
  refine ⟨h.coherent, h.fields, h.loads, fun hv => ?_, h.unsold⟩
  have hkeys := h.keys hv
  by_cases hvw : v = w
  · subst hvw
    rw [hnone] at hkeys
    simp only [State.setCall, Function.update_self]
    exact ⟨hkeys.1, hkeys.2⟩
  · simpa only [State.setCall, Function.update_of_ne hvw] using hkeys

/-- The keys of another voucher are not those of the call. -/
theorem keys_update {redis : Redis} {call : Option Call} {w : VoucherId} (hvw : v ≠ w)
    (stock : Option ℤ) (activity : ActivityMeta) (h : Keys v redis call) :
    Keys v { redis with
      stock := Function.update redis.stock w stock
      activity := Function.update redis.activity w activity } call := by
  cases call with
  | none =>
    exact ⟨(Function.update_of_ne hvw _ _).trans h.1, (Function.update_of_ne hvw _ _).trans h.2⟩
  | some call =>
    exact ⟨(Function.update_of_ne hvw _ _).trans h.stock,
      (Function.update_of_ne hvw _ _).trans h.activity⟩

theorem coherent_write {p : Pipeline.State} (h : Coherent rejects p)
    (stock : VoucherId → Option ℤ) (activity : VoucherId → ActivityMeta)
    (rows : VoucherId → Option ℤ) :
    Coherent rejects { p with
      redis := { p.redis with stock := stock, activity := activity }
      db := { p.db with stock := rows } } := by
  have hredis : Coherent rejects { p with
      redis := { p.redis with stock := stock, activity := activity } } :=
    h.of_redis rfl rfl rfl
  exact hredis.of_db ⟨fun e he => ⟨e, he, rfl, rfl⟩, fun o ho => ⟨o, ho, rfl, rfl, rfl⟩⟩
    h.outbox h.completed h.orders

theorem inv_advance {w : VoucherId} {reply : Reply} (h : Inv rejects v s)
    (hstep : step rejects s (.advance w reply) = some t) : Inv rejects v t := by
  simp only [step] at hstep
  split at hstep
  · rename_i creation statement hw
    cases hstep
    have hrow {u : VoucherId} :=
      VoucherCreation.execute_row w ⟨creation, s.pipeline.redis, s.pipeline.db⟩ statement reply
        (w := u)
    obtain ⟨stock, activity, row, hredis, hdb⟩ :=
      VoucherCreation.execute_frame w ⟨creation, s.pipeline.redis, s.pipeline.db⟩ statement reply
    refine ⟨?_, ?_, fun i hi hnone => h.loads i hi (hrow hnone), fun hv => ?_, fun hv => ?_⟩
    · simp only [hredis, hdb]
      exact coherent_write h.coherent _ _ _
    · simp only [hredis]
      exact h.fields
    · have hkeys := h.keys (not_committed.mpr (hrow (not_committed.mp hv)))
      by_cases hvw : v = w
      · subst hvw
        rw [hw] at hkeys
        simp only [State.setCall, Function.update_self]
        exact VoucherCreation.keys_execute v _ statement reply hkeys
      · simp only [State.setCall, Function.update_of_ne hvw, hredis]
        exact keys_update hvw stock activity hkeys
    · have hunsold := h.unsold (not_committed.mpr (hrow (not_committed.mp hv)))
      refine ⟨hunsold.granted, ?_⟩
      simp only [hredis]
      exact hunsold.purchased
  · exact absurd hstep (by simp)

/-- A write to a hash. -/
theorem Inv.setActivity {w : VoucherId} {activity : ActivityMeta}
    {creations : VoucherId → Option Call} {loads : ℕ → Option VoucherId} (h : Inv rejects v s)
    (hloads : ∀ i, loads i = some v → s.committed v)
    (hkeys : ¬s.committed v →
      Keys v (s.setActivity w activity).pipeline.redis (creations v)) :
    Inv rejects v { s.setActivity w activity with creations := creations, loads := loads } where
  coherent := h.coherent.of_redis rfl rfl rfl
  fields := h.fields
  loads := hloads
  keys := hkeys
  unsold hv := ⟨(h.unsold hv).granted, (h.unsold hv).purchased⟩

/-- The hash of another voucher. -/
theorem keys_setActivity {call : Option Call} {w : VoucherId} {activity : ActivityMeta}
    (hvw : v ≠ w) (h : Keys v s.pipeline.redis call) :
    Keys v (s.setActivity w activity).pipeline.redis call := by
  have hupdate := keys_update hvw (s.pipeline.redis.stock w) activity h
  rwa [Function.update_eq_self] at hupdate

theorem inv_putAll {i : ℕ} {activity : Activity} (h : Inv rejects v s)
    (hstep : step rejects s (.putAll i activity) = some t) : Inv rejects v t := by
  simp only [step] at hstep
  split at hstep
  · exact absurd hstep (by simp)
  rename_i w hi
  cases hstep
  refine h.setActivity (fun j hj => ?_) fun hv => ?_
  · by_cases hji : j = i
    · subst hji
      exact absurd hj (by simp)
    · exact h.loads j ((Function.update_of_ne hji _ _).symm.trans hj)
  · have hvw : v ≠ w := fun hvw => hv (h.loads i (hvw ▸ hi))
    exact keys_setActivity hvw (h.keys hv)

theorem inv_expireHash {w : VoucherId} (h : Inv rejects v s)
    (hstep : step rejects s (.expireHash w) = some t) : Inv rejects v t := by
  simp only [step] at hstep
  split at hstep
  · rename_i hnone
    cases hstep
    refine h.setActivity h.loads fun hv => ?_
    have hkeys := h.keys hv
    by_cases hvw : v = w
    · subst hvw
      rw [hnone] at hkeys ⊢
      exact ⟨hkeys.1, Function.update_self _ _ _⟩
    · exact keys_setActivity hvw hkeys
  · rename_i call hcall
    cases hstep
    refine h.setActivity h.loads fun hv => ?_
    have hkeys := h.keys hv
    by_cases hvw : v = w
    · subst hvw
      rw [hcall] at hkeys
      simp only [Function.update_self]
      exact ⟨hkeys.stock, Function.update_self _ _ _⟩
    · simp only [Function.update_of_ne hvw]
      exact keys_setActivity hvw hkeys

theorem inv_crash {w : VoucherId} (h : Inv rejects v s)
    (hstep : step rejects s (.crash w) = some t) : Inv rejects v t := by
  simp only [step] at hstep
  split at hstep
  · exact absurd hstep (by simp)
  rename_i call hcall
  cases hstep
  refine ⟨h.coherent, h.fields, h.loads, fun hv => ?_, h.unsold⟩
  have hkeys := h.keys hv
  by_cases hvw : v = w
  · subst hvw
    rw [hcall] at hkeys
    simp only [State.setCall, Function.update_self]
    exact hkeys
  · simpa only [State.setCall, Function.update_of_ne hvw] using hkeys

/-- **A safe step keeps the keys and sells nothing.** -/
theorem inv_step : Preserves (step rejects) (Safe v) (Inv rejects v) := by
  intro s a t hsafe h hstep
  cases a with
  | pipeline action => exact inv_pipeline h hsafe hstep
  | issueTokens accessToken =>
    cases hstep
    refine ⟨h.coherent.of_redis rfl rfl rfl, h.fields, h.loads, fun hv => ?_,
      fun hv => ⟨(h.unsold hv).granted, (h.unsold hv).purchased⟩⟩
    have hkeys := h.keys hv
    show Keys v _ (s.creations v)
    cases hcall : s.creations v with
    | none =>
      rw [hcall] at hkeys
      exact ⟨hkeys.1, hkeys.2⟩
    | some call =>
      rw [hcall] at hkeys
      exact ⟨hkeys.stock, hkeys.activity⟩
  | create w request => exact inv_create h hstep
  | advance w reply => exact inv_advance h hstep
  | crash w => exact inv_crash h hstep
  | readRows i w =>
    simp only [step] at hstep
    split at hstep
    · rename_i hw
      cases hstep
      refine ⟨h.coherent, h.fields, fun j hj => ?_, h.keys, h.unsold⟩
      by_cases hji : j = i
      · subst hji
        simp only [Function.update_self, Option.some.injEq] at hj
        rwa [← hj]
      · exact h.loads j ((Function.update_of_ne hji _ _).symm.trans hj)
    · cases hstep
      exact h
  | putAll i activity => exact inv_putAll h hstep
  | expireHash w => exact inv_expireHash h hstep

/-- **An unsafe step sells a voucher without a row.** -/
theorem sold_of_unsafe {a : Action} (h : Inv rejects v s) (hsafe : ¬Safe v s a)
    (hstep : step rejects s a = some t) :
    ¬t.committed v ∧ ∃ r ∈ t.pipeline.granted, r.voucherId = v := by
  unfold Safe at hsafe
  split at hsafe
  · rename_i c
    push Not at hsafe
    obtain ⟨hc, hv, call, hcall, hsells⟩ := hsafe
    have hcode := (seckillLua_sells h hc hv).mpr ⟨call, hcall, hsells⟩
    simp only [step, State.admits] at hstep
    obtain ⟨p, hp, rfl⟩ := Option.map_eq_some_iff.mp hstep
    simp only [Pipeline.step] at hp
    split at hp
    · exact absurd hp (by simp)
    cases hp
    exact ⟨hv, c.reservation, List.mem_cons_self, hc⟩
  · exact absurd trivial hsafe

/-! ## Runs -/

/-- Whatever the step, an accepted order stays accepted. -/
theorem granted_step {a : Action} (h : Coherent rejects s.pipeline)
    (hstep : step rejects s a = some t) :
    Coherent rejects t.pipeline ∧ ∀ r ∈ s.pipeline.granted, r ∈ t.pipeline.granted := by
  cases a with
  | pipeline action =>
    simp only [step] at hstep
    split at hstep
    · obtain ⟨p, hp, rfl⟩ := Option.map_eq_some_iff.mp hstep
      exact ⟨coherent_step h hp, fun r hr => Pipeline.granted_step h hp hr⟩
    · exact absurd hstep (by simp)
  | issueTokens accessToken =>
    cases hstep
    exact ⟨h.of_redis rfl rfl rfl, fun r hr => hr⟩
  | create w request =>
    simp only [step] at hstep
    split at hstep
    · exact absurd hstep (by simp)
    split at hstep
    · exact absurd hstep (by simp)
    split at hstep <;> cases hstep <;> exact ⟨h, fun r hr => hr⟩
  | advance w reply =>
    simp only [step] at hstep
    split at hstep
    · rename_i creation statement hw
      cases hstep
      obtain ⟨stock, activity, row, hredis, hdb⟩ :=
        VoucherCreation.execute_frame w ⟨creation, s.pipeline.redis, s.pipeline.db⟩ statement reply
      simp only [hredis, hdb]
      exact ⟨coherent_write h _ _ _, fun r hr => hr⟩
    · exact absurd hstep (by simp)
  | crash w =>
    simp only [step] at hstep
    split at hstep <;> cases hstep
    exact ⟨h, fun r hr => hr⟩
  | readRows i w =>
    simp only [step] at hstep
    split at hstep <;> cases hstep <;> exact ⟨h, fun r hr => hr⟩
  | putAll i activity =>
    simp only [step] at hstep
    split at hstep <;> cases hstep
    exact ⟨h.of_redis rfl rfl rfl, fun r hr => hr⟩
  | expireHash w =>
    simp only [step] at hstep
    split at hstep <;> cases hstep <;> exact ⟨h.of_redis rfl rfl rfl, fun r hr => hr⟩

theorem granted_run {as : List Action} (h : Coherent rejects s.pipeline)
    (hrun : run (step rejects) s as = some t) {r : Reservation} (hr : r ∈ s.pipeline.granted) :
    r ∈ t.pipeline.granted := by
  have hall : Coherent rejects t.pipeline ∧ r ∈ t.pipeline.granted :=
    run_invariant' (I := fun u => Coherent rejects u.pipeline ∧ r ∈ u.pipeline.granted)
      (fun _ _ _ hu hstep => ⟨(granted_step hu.1 hstep).1, (granted_step hu.1 hstep).2 r hu.2⟩)
      ⟨h, hr⟩ hrun
  exact hall.2

/-- A run that ends with nothing of the voucher sold has taken safe steps only. -/
theorem along_safe_of_unsold {as : List Action} (h : Inv rejects v s)
    (hrun : run (step rejects) s as = some t) (ht : ∀ r ∈ t.pipeline.granted, r.voucherId ≠ v) :
    Along (step rejects) (Safe v) s as := by
  induction as generalizing s with
  | nil => trivial
  | cons a as ih =>
    obtain ⟨u, hu, hrest⟩ := run_cons.mp hrun
    have hsafe : Safe v s a := by
      by_contra hsafe
      obtain ⟨-, r, hr, hv⟩ := sold_of_unsafe h hsafe hu
      exact ht r (granted_run (granted_step h.coherent hu).1 hrest hr) hv
    refine ⟨hsafe, fun w hw => ?_⟩
    cases hu.symm.trans hw
    exact ih (inv_step hsafe h hu) hrest

/-- **When a creation is all or nothing.** In every run, nothing of the voucher is ever sold while
it has no row iff all steps are safe; and when the creation is rolled back for good, so that the
run ends without a row, `seckill.lua` has never answered 0 for the voucher iff they are. -/
theorem all_or_nothing_iff (rejects : Reservation → Bool) (v : VoucherId) {s t : State}
    {as : List Action} (hstart : Start s) (hrun : run (step rejects) s as = some t) :
    (Along (step rejects) (Safe v) s as ↔
      ∀ bs u, bs <+: as → run (step rejects) s bs = some u → AllOrNothing v u) ∧
    (¬t.committed v → (Along (step rejects) (Safe v) s as ↔
      ∀ r ∈ t.pipeline.granted, r.voucherId ≠ v)) := by
  have hfirst : Inv rejects v s := hstart.inv v
  constructor
  · refine along_iff_invariant inv_step ?_ hfirst hfirst.allOrNothing hrun
    intro s a u hs _ hstep
    constructor
    · intro hu
      by_contra hsafe
      obtain ⟨hv, r, hr, hrv⟩ := sold_of_unsafe hs hsafe hstep
      exact (hu hv).granted r hr hrv
    · intro hsafe
      exact (inv_step hsafe hs hstep).allOrNothing
  · intro hv
    constructor
    · intro hsafe
      exact ((run_invariant inv_step hsafe hfirst hrun).unsold hv).granted
    · exact along_safe_of_unsold hfirst hrun

/-- There is no voucher yet. -/
def newShop : State where
  pipeline := ⟨Redis.empty, Db.empty, ∅, [], fun _ => [], [], [], fun _ => none, fun _ => none⟩
  creations _ := none
  loads _ := none

theorem start_newShop : Start newShop where
  pipeline := ⟨rfl, rfl, fun _ => rfl, rfl, fun _ => rfl, rfl, fun _ => rfl, rfl, rfl,
    fun _ => rfl, fun _ => rfl⟩
  creations _ := rfl
  loads _ := rfl
  stock _ _ := rfl
  activity _ _ := rfl
  purchased _ _ := rfl

/-- Voucher 7 with two units, its sale from `beginTime` to 100, is created up to the commit, which
fails; users ask for it at time 50, one before the commit and one after the compensation. -/
def rolledBack (beginTime : Time) : List Action :=
  .create 7 (some ⟨some 2, some beginTime, some 100, none⟩) ::
    List.replicate 6 (.advance 7 .returns) ++
    [.pipeline (buy 1 5), .advance 7 (.throws false)] ++
    List.replicate 4 (.advance 7 .returns) ++
    [.pipeline (buy 2 6)]

/-- The sale has not begun. -/
theorem all_or_nothing_before_sale :
    ∃ t, run (step fun _ => false) newShop (rolledBack 60) = some t ∧ ¬t.committed 7 ∧
      (∀ bs u, bs <+: rolledBack 60 → run (step fun _ => false) newShop bs = some u →
        AllOrNothing 7 u) ∧
      ∀ r ∈ t.pipeline.granted, r.voucherId ≠ 7 := by
  obtain ⟨t, ht, hv⟩ := (Option.any_eq_true _ _).mp
    (show (run (step fun _ => false) newShop (rolledBack 60)).any
      (fun t => decide (¬t.committed 7)) = true by decide +kernel)
  have hv := of_decide_eq_true hv
  have hsafe : Along (step fun _ => false) (Safe 7) newShop (rolledBack 60) := by decide +kernel
  have hiff := all_or_nothing_iff (fun _ => false) 7 start_newShop ht
  exact ⟨t, ht, hv, hiff.1.mp hsafe, (hiff.2 hv).mp hsafe⟩

/-- What is left of voucher 7 and of order 1. -/
structure Remains where
  row : Option ℤ
  stock : Option ℤ
  /-- the statement the creation has next -/
  next : Option (Option VoucherCreation.Statement)
  granted : List Reservation
  handoff : List Text
  accepted : Option Text
  purchased : Finset UserId
  deriving DecidableEq

/-- What is left of voucher 7. -/
def State.remains (s : State) : Remains where
  row := s.pipeline.db.stock 7
  stock := s.pipeline.redis.stock 7
  next := (s.creations 7).map Call.next
  granted := s.pipeline.granted
  handoff := (s.pipeline.redis.handoff 7).members
  accepted := s.pipeline.redis.accepted 1
  purchased := s.pipeline.redis.purchased 7

/-- **The law fails**: the sale has begun when the user asks, and the order outlives the voucher. -/
theorem sold_and_rolled_back :
    ∃ t, run (step fun _ => false) newShop (rolledBack 0) = some t ∧ ¬AllOrNothing 7 t ∧
      t.remains = ⟨none, none, some none, [⟨1, 7, 5, false⟩], ["1|5|0".toList],
        some "5|7".toList, {5}⟩ := by
  obtain ⟨t, ht, hremains⟩ := Option.map_eq_some_iff.mp
    (show (run (step fun _ => false) newShop (rolledBack 0)).map State.remains =
      some ⟨none, none, some none, [⟨1, 7, 5, false⟩], ["1|5|0".toList],
        some "5|7".toList, {5}⟩ by decide +kernel)
  refine ⟨t, ht, fun hlaw => ?_, hremains⟩
  have hrow : t.pipeline.db.stock 7 = none := congrArg Remains.row hremains
  have hbuyer : t.pipeline.redis.purchased 7 = {5} := congrArg Remains.purchased hremains
  have hempty := (hlaw (not_committed.mpr hrow)).purchased
  rw [hbuyer] at hempty
  exact absurd hempty (by decide)

end Hmdp.Creation
