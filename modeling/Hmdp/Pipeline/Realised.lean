import Hmdp.Pipeline.Progress

/-!
# Every sale is a run of the pipeline

The other direction of `pipeline_refines_sale`: whatever the atomic sale allows its callers to see,
they can see of the pipeline. So the sale is not only sound for it but exact, but for the answer 8,
which the reconciliation gives: the pipeline promises no more and refuses no less.

An answer takes an activity and a token to suit it. A refund takes the order all the way into
`tb_voucher_order`: the background brings it there (`sane_can_rest`), it is the only live order of
its user, so it is the one that is selected, and nothing keeps the cancellation from committing.

* **`sale_is_realised`**.
-/

namespace Hmdp.Pipeline

open Hmdp.Lib Hmdp.Model

variable {rejects : Reservation → Bool} {s t : State} {x : Sale}

/-- What the construction keeps besides the relation to the sale. -/
structure Ready (rejects : Reservation → Bool) (s : State) (x : Sale) : Prop where
  presents : Presents rejects s x
  sane : Sane rejects s
  noReview : ∀ r, ¬InReview s.db r
  /-- nobody has paid -/
  unpaid : ∀ row ∈ s.db.orders.rows, row.status = .unpaid ∨ row.status = .cancelled
  noRecovery : ∀ v, s.redis.recovery v = none
  noCancel : s.cancels 0 = none

/-- No step starts a reconciliation, or makes an order anything but unpaid or cancelled. -/
theorem unpaid_step {a : Action} (hs : Coherent rejects s) (hstep : step rejects s a = some t)
    (h : (∀ row ∈ s.db.orders.rows, row.status = .unpaid ∨ row.status = .cancelled) ∧
      ∀ v, s.redis.recovery v = none) :
    (∀ row ∈ t.db.orders.rows, row.status = .unpaid ∨ row.status = .cancelled) ∧
      ∀ v, t.redis.recovery v = none := by
  cases step_effect hs hstep with
  | quiet stores _ => rwa [stores.orders, stores.recovery]
  | reserved c n _ _ _ _ _ _ _ redis db _ => rwa [db, redis]
  | persisted tx messages os _ _ created redis _ =>
    rw [redis]
    refine ⟨fun row hrow => ?_, h.2⟩
    rcases (createOrders_mem_rows created).mp hrow with hrow | ⟨o, -, rfl⟩
    · exact h.1 row hrow
    · exact Or.inl rfl
  | cancelled _ order n _ _ _ cancel _ redis _ =>
    rw [redis, (cancelInTransaction_some cancel).2.1]
    refine ⟨fun row hrow => ?_, h.2⟩
    obtain ⟨r, hr, rfl⟩ := List.mem_map.mp hrow
    unfold cancelRow
    split
    · exact Or.inr rfl
    · exact h.1 r hr

/-- After a step, from what it leaves in review and of the cancellations. -/
theorem Ready.next {a : Action} {y : Sale} (h : Ready rejects s x)
    (hstep : step rejects s a = some t) (hpresents : Presents rejects t y)
    (hreview : ∀ r, InReview t.db r → InReview s.db r) (hcancels : t.cancels 0 = none) :
    Ready rejects t y := by
  obtain ⟨hunpaid, hrecovery⟩ :=
    unpaid_step h.sane.coherent hstep ⟨h.unpaid, h.noRecovery⟩
  exact ⟨hpresents, sane_step h.sane hstep, fun r hr => h.noReview r (hreview r hr), hunpaid,
    hrecovery, hcancels⟩

/-! ## Answers -/

/-- The activity that makes `seckill.lua` give the answer at time 0. -/
def activityFor (reply : ℤ) : ActivityMeta :=
  if reply = 3 then ⟨none, none, none⟩
  else if reply = 4 then ⟨some 1, some 1, some 1⟩
  else if reply = 5 then ⟨some (-1), some (-1), some 1⟩
  else if reply = 6 then ⟨some 0, some 0, some 0⟩
  else ⟨some 0, some 0, some 1⟩

/-- The call: only for the answer 7 is a token asked for, and none is stored. -/
def callFor (p : Purchase) (reply : ℤ) : SeckillCall :=
  ⟨p.voucherId, p.userId, p.orderId, 0, [], decide (reply = 7)⟩

/-- **The call gets the answer.** -/
theorem seckillLua_callFor {p : Purchase} {reply : ℤ} {redis : Redis}
    (hstock : redis.stock = x.stock) (hbuyers : ∀ v, redis.purchased v = x.buyers v)
    (hrecovery : redis.recovery p.voucherId = none)
    (hactivity : redis.activity p.voucherId = activityFor reply)
    (htoken : redis.accessToken p.voucherId p.userId = none) (hallows : x.Allows p reply)
    (hreply : reply ≠ 8) : (seckillLua (callFor p reply) redis).1 = reply := by
  have hbuyer : (callFor p reply).userId ∈ redis.purchased (callFor p reply).voucherId ↔
      p.userId ∈ x.buyers p.voucherId := by
    rw [hbuyers]
    rfl
  have hstock' : redis.stock (callFor p reply).voucherId = x.stock p.voucherId := by
    rw [hstock]
    rfl
  have hsold : 0 < x.remaining p.voucherId →
      ∃ n, x.stock p.voucherId = some n ∧ 0 < n := by
    unfold Sale.remaining
    cases x.stock p.voucherId with
    | none => exact fun h => absurd h (by simp)
    | some n => exact fun h => ⟨n, rfl, h⟩
  unfold seckillLua
  rw [show redis.recovery (callFor p reply).voucherId = none from hrecovery,
    show redis.activity (callFor p reply).voucherId = activityFor reply from hactivity]
  simp only [hstock', hbuyer]
  obtain ⟨-, ⟨rfl, hpos, hnew⟩ | ⟨rfl, hnone⟩ | ⟨rfl, hpos, hin⟩ | ⟨rfl, hpos, hnew⟩ | hcode⟩ :=
    hallows
  · obtain ⟨n, hn, hn0⟩ := hsold hpos
    simp [activityFor, callFor, hn, hnew, not_le.mpr hn0]
  · unfold Sale.remaining at hnone
    cases hs : x.stock p.voucherId with
    | none => simp [activityFor, callFor]
    | some n =>
      rw [hs] at hnone
      simp [activityFor, callFor, show n ≤ 0 from hnone]
  · obtain ⟨n, hn, hn0⟩ := hsold hpos
    simp [activityFor, callFor, hn, hin, not_le.mpr hn0]
  · obtain ⟨n, hn, hn0⟩ := hsold hpos
    simp [activityFor, callFor, hn, hnew, not_le.mpr hn0, htoken]
  · simp only [Finset.mem_insert, Finset.mem_singleton] at hcode
    rcases hcode with rfl | rfl | rfl | rfl | rfl
    · simp [activityFor]
    · simp [activityFor, callFor]
    · simp [activityFor, callFor]
    · simp [activityFor, callFor]
    · exact absurd rfl hreply

theorem realises_answer {p : Purchase} {reply : ℤ} {y : Sale} (h : Ready rejects s x)
    (hreply : reply ≠ 8) (hy : x.step (.answered p reply) = some y) :
    ∃ as t, run (step rejects) s as = some t ∧
      trace (step rejects) shows s as = [.answered p reply] ∧ Ready rejects t y := by
  have hallows : x.Allows p reply := by
    by_contra hc
    rw [Sale.step, if_neg hc] at hy
    exact absurd hy (by simp)
  have hconfigure : step rejects s
      (.configure (fun _ => activityFor reply) fun _ _ => none) = some { s with
        redis := { s.redis with
          activity := fun _ => activityFor reply, accessToken := fun _ _ => none } } := rfl
  obtain ⟨x', hx', hpresents⟩ := simulates_sale rejects h.presents hconfigure
  have hx : x = x' := Option.some.inj hx'
  subst hx
  have hready := h.next hconfigure hpresents (fun _ hr => hr) h.noCancel
  generalize hu : ({ s with
    redis := { s.redis with
      activity := fun _ => activityFor reply, accessToken := fun _ _ => none } } : State) = u
      at hconfigure hready
  have hcode : (seckillLua (callFor p reply) u.redis).1 = reply :=
    seckillLua_callFor hready.presents.stock hready.presents.buyers (hready.noRecovery _)
      (by rw [← hu]) (by rw [← hu]) hallows hreply
  have hfresh : (callFor p reply).orderId ∉ u.issued := by
    rw [hready.presents.issued]
    exact hallows.1
  obtain ⟨t, ht⟩ : ∃ t, step rejects u (.seckill (callFor p reply)) = some t := by
    simp only [step, if_neg hfresh]
    exact ⟨_, rfl⟩
  have hshows : shows u (.seckill (callFor p reply)) = some (.answered p reply) := by
    rw [← hcode]
    simp only [shows, hcode]
    rfl
  obtain ⟨y', hy', hpresents'⟩ := simulates_sale rejects hready.presents ht
  rw [hshows] at hy'
  have hyy : y = y' := Option.some.inj (hy.symm.trans (run_single.mp hy'))
  subst hyy
  refine ⟨[.configure (fun _ => activityFor reply) fun _ _ => none, .seckill (callFor p reply)], t,
    run_cons.mpr ⟨u, hconfigure, run_single.mpr ht⟩, ?_, hready.next ht hpresents' ?_ ?_⟩
  · rw [trace, hconfigure]
    simp only [Option.map_some, Option.getD_some, trace, hshows, ht]
    rfl
  · simp only [step, if_neg hfresh] at ht
    cases ht
    exact fun _ hr => hr
  · simp only [step, if_neg hfresh] at ht
    cases ht
    exact hready.noCancel

/-! ## Refunds -/

/-- The background shows nothing and touches no cancellation. -/
theorem background_silent {limit : ℕ} {config : RelayConfig} {owner : Text} {earliest : Time}
    (s : State) (a : Action) (ha : Background limit config owner earliest s a) :
    shows s a = none := by
  cases a with
  | seckill c => exact ha.elim
  | cancel i => exact ha.elim
  | _ => rfl

theorem background_cancels {limit : ℕ} {config : RelayConfig} {owner : Text} {earliest : Time}
    {a : Action} (ha : Background limit config owner earliest s a)
    (hstep : step rejects s a = some t) : t.cancels = s.cancels := by
  cases a with
  | crash i => cases hstep; rfl
  | claimRelayBatch ids o leaseUntil now => cases hstep; rfl
  | fetch i v n now =>
    simp only [step] at hstep
    split at hstep <;> cases hstep
    rfl
  | relayTask i =>
    simp only [step] at hstep
    split at hstep
    · exact absurd hstep (by simp)
    · split at hstep <;> cases hstep <;> rfl
  | send row withOutboxId =>
    simp only [step] at hstep
    split at hstep <;> cases hstep
    rfl
  | createOrders tx messages =>
    simp only [step] at hstep
    split at hstep
    · split at hstep <;> cases hstep <;> rfl
    · exact absurd hstep (by simp)
  | _ => exact ha.elim

/-- **The background stays with the sale.** -/
theorem ready_background {limit : ℕ} {config : RelayConfig} {owner : Text} {earliest : Time}
    (h : Ready rejects s x)
    (hreach : Reaches (step rejects) (Background limit config owner earliest) s t) :
    Ready rejects t x :=
  hreach.keeps (I := fun s => Ready rejects s x) (fun u a w ha hu hstep => by
    obtain ⟨y, hy, hpresents⟩ := simulates_sale rejects hu.presents hstep
    rw [background_silent u a ha] at hy
    have hxy : x = y := Option.some.inj hy
    subst hxy
    exact hu.next hstep hpresents
      (fun r hr => background_review ha hu.sane.coherent hstep hr)
      (by rw [background_cancels ha hstep, hu.noCancel])) h

/-- **A purchase at rest is cancelled** when its user asks for it. -/
theorem cancel_purchase {p : Purchase} (h : Ready rejects s x) (hp : p ∈ x.purchases)
    (hrow : ∃ o ∈ s.db.orders.rows, o.id = p.orderId ∧ o.userId = p.userId ∧
      o.voucherId = p.voucherId) :
    ∃ as t, run (step rejects) s as = some t ∧
      trace (step rejects) shows s as = [.refunded p] ∧ Ready rejects t (x.refund p) := by
  obtain ⟨o, ho, hid, hu, hv⟩ := hrow
  have hclaim := (h.presents.purchases p).mp hp
  have hlive := ((mem_claims h.sane.coherent).mp hclaim).2
  -- what is selected is the order of the purchase
  obtain ⟨row, hpick⟩ : ∃ row,
      selectActiveOrder NewestFirst.first p.userId p.voucherId s.db = some row :=
    Option.isSome_iff_exists.mp (NewestFirst.first.some_of_ne_nil
      (List.ne_nil_of_mem (mem_liveOrders.mpr ⟨ho, hu, hv, hlive o ho hid⟩)))
  obtain ⟨hrow, hrowu, hrowv, hrowlive⟩ := mem_liveOrders.mp (NewestFirst.first.mem hpick)
  have hrowid : row.id = p.orderId := by
    refine Finset.card_le_one.mp (h.presents.one p.userId p.voucherId).one _ ?_ _ hclaim
    obtain ⟨r, hr, hrid, hru, hrv⟩ := h.sane.coherent.orders row hrow
    refine (mem_claims h.sane.coherent).mpr ⟨⟨r, h.sane.coherent.granted_of_inOutbox hr, hrid,
      hru.trans hrowu, hrv.trans hrowv⟩, fun row' hrow' hid' => ?_⟩
    rwa [s.db.order_unique hrow' hrow hid']
  have hpurchase : p = ⟨row.id, row.userId, row.voucherId⟩ := by
    rw [hrowid, hrowu, hrowv]
  have hselect : step rejects s (.selectOrder 0 NewestFirst.first p.userId p.voucherId) =
      some { s with cancels := Function.update s.cancels 0 (some row) } := by
    simp only [step, h.noCancel, hpick]
  obtain ⟨x', hx', hpresents⟩ := simulates_sale rejects h.presents hselect
  have hxx : x = x' := Option.some.inj hx'
  subst hxx
  -- the cancellation finds a unit and a row
  obtain ⟨r, hr, -, -, hrv⟩ := ((mem_claims h.sane.coherent).mp hclaim).1
  obtain ⟨n, hn⟩ := h.sane.onSale r hr
  rw [hrv] at hn
  obtain ⟨m, S, hc⟩ := balanced_iff.mp (h.sane.balanced p.voucherId n hn)
  obtain ⟨db, hdb⟩ := Option.isSome_iff_exists.mp (cancelInTransaction_isSome.mpr
    ⟨⟨row, hrow, rfl, rfl, Or.inl ((h.unpaid row hrow).resolve_right hrowlive)⟩, S,
      hrowv ▸ hc.mysql, Int.le_add_one hc.mysql_nonneg⟩)
  obtain ⟨redis, hcommit⟩ : ∃ redis, cancelCommitted row s.redis s.db = some (redis, db) := by
    unfold cancelCommitted
    rw [hdb, Option.bind_some]
    rcases cancelLua_cases row.voucherId row.userId s.redis with ⟨hnone, -⟩ | ⟨k, -, hcode, -⟩
    · rw [hrowv, hn] at hnone
      exact absurd hnone (by simp)
    · simp only [if_neg (not_lt.mpr hcode)]
      exact ⟨_, rfl⟩
  have hcancel : step rejects { s with cancels := Function.update s.cancels 0 (some row) }
      (.cancel 0) = some { s with
        redis := redis, db := db, cancels := Function.update s.cancels 0 none } := by
    simp only [step, Function.update_self, hcommit, Function.update_idem]
  have hshows : shows { s with cancels := Function.update s.cancels 0 (some row) } (.cancel 0) =
      some (.refunded p) := by
    simp only [shows, Function.update_self, Option.bind_some, hcommit, Option.map_some,
      hpurchase]
  obtain ⟨y, hy, hpresents'⟩ := simulates_sale rejects hpresents hcancel
  rw [hshows] at hy
  have hyy : x.refund p = y := by
    have hstep := run_single.mp hy
    rw [Sale.step, if_pos hp] at hstep
    exact Option.some.inj hstep
  subst hyy
  have hnoReview : ∀ r, InReview db r → InReview s.db r := by
    rintro q ⟨e, he, hres, hstatus⟩
    rw [(cancelInTransaction_some hdb).2.2.2.1] at he
    exact ⟨e, he, hres, hstatus⟩
  obtain ⟨hunpaid, hrecovery⟩ := unpaid_step hpresents.coherent hcancel ⟨h.unpaid, h.noRecovery⟩
  refine ⟨[.selectOrder 0 NewestFirst.first p.userId p.voucherId, .cancel 0], _,
    run_cons.mpr ⟨_, hselect, run_single.mpr hcancel⟩, ?_, hpresents',
    sane_step (sane_step h.sane hselect) hcancel, fun r hr => h.noReview r (hnoReview r hr),
    hunpaid, hrecovery, by simp⟩
  rw [trace, hselect]
  simp only [Option.map_some, Option.getD_some, trace, hshows, hcancel]
  rfl

theorem realises_refund (hrejects : ∀ r, rejects r = false) {p : Purchase} {y : Sale}
    (h : Ready rejects s x) (hy : x.step (.refunded p) = some y) :
    ∃ as t, run (step rejects) s as = some t ∧
      trace (step rejects) shows s as = [.refunded p] ∧ Ready rejects t y := by
  have hp : p ∈ x.purchases := by
    by_contra hc
    rw [Sale.step, if_neg hc] at hy
    exact absurd hy (by simp)
  rw [Sale.step, if_pos hp, Option.some.injEq] at hy
  subst hy
  obtain ⟨u, hu, -, hrest⟩ := sane_can_rest 1 ⟨1, 0, 0, ⟨0, 0⟩⟩ [] 0 atZero (by omega)
    (by simp) (by simp) h.sane
  have hready := ready_background h hu
  obtain ⟨⟨r, hr, hid, huser, hvoucher⟩, -⟩ :=
    (mem_claims hready.sane.coherent).mp ((hready.presents.purchases p).mp hp)
  obtain ⟨bs, hbs, hrun⟩ := hu
  cases (hrest r hr).1 with
  | quarantined _ rejected =>
    rw [hrejects r] at rejected
    exact absurd rejected (by simp)
  | reviewed review => exact absurd review (hready.noReview r)
  | ordered row =>
    rw [hid, huser, hvoucher] at row
    obtain ⟨as, t, has, htrace, ht⟩ := cancel_purchase hready hp row
    refine ⟨bs ++ as, t, run_append.mpr ⟨u, hrun, has⟩, ?_, ht⟩
    rw [trace_append hrun, trace_silent background_silent hbs, htrace, List.nil_append]

/-! ## The whole sale -/

/-- An answer of `seckill.lua` on its own. -/
def SaleEvent.unfenced : SaleEvent → Prop
  | .answered _ reply => reply ≠ 8
  | .refunded _ => True

theorem realises_sale (hrejects : ∀ r, rejects r = false) :
    Realises (step rejects) shows Sale.step SaleEvent.unfenced (Ready rejects) := by
  intro s x e y h he hy
  cases e with
  | answered p reply => exact realises_answer h he hy
  | refunded p => exact realises_refund hrejects h hy

/-- **Every run of the sale is seen in a run of the pipeline.** From a start where nobody has
bought, no voucher is being reconciled and MySQL has the stocks that Redis has, and when MySQL
rejects no row, each run of the sale is what the callers see in some run of the pipeline, and the
stores at its end say what the sale says. -/
theorem sale_is_realised (rejects : Reservation → Bool) (hrejects : ∀ r, rejects r = false)
    {s : State} (hstart : Start s) (hbuyers : ∀ v, s.redis.purchased v = ∅)
    (hrecovery : ∀ v, s.redis.recovery v = none)
    (hstock : ∀ v n, s.redis.stock v = some n → s.db.stock v = some n ∧ 0 ≤ n)
    {events : List SaleEvent} (hunfenced : ∀ e ∈ events, e.unfenced) {x : Sale}
    (hrun : run Sale.step (Sale.opening s.redis.stock s.issued) events = some x) :
    ∃ as t, run (step rejects) s as = some t ∧ trace (step rejects) shows s as = events ∧
      Shown t x := by
  have hready : Ready rejects s (Sale.opening s.redis.stock s.issued) := by
    refine ⟨hstart.presents hbuyers hstock, hstart.sane hstock, ?_, ?_, hrecovery,
      hstart.cancels 0⟩
    · rintro r ⟨e, he, -⟩
      rw [hstart.outbox] at he
      exact absurd he (by simp)
    · simp [hstart.orders]
  obtain ⟨as, t, has, htrace, ht⟩ :=
    realises_run (realises_sale hrejects) hready hunfenced hrun
  exact ⟨as, t, has, htrace, ht.presents.shown⟩

/-- One unit: user 5 gets it, 6 does not, 5 gives it back, and 6 gets it. -/
def soldTwice : List SaleEvent :=
  [.answered ⟨1, 5, 7⟩ 0, .answered ⟨2, 6, 7⟩ 1, .refunded ⟨1, 5, 7⟩, .answered ⟨3, 6, 7⟩ 0]

theorem sale_is_realised_sold_twice : ∃ as t,
    run (step fun _ => false) (onSale 1) as = some t ∧
      trace (step fun _ => false) shows (onSale 1) as = soldTwice ∧
      ∃ x, run Sale.step (Sale.opening (onSale 1).redis.stock (onSale 1).issued) soldTwice =
        some x ∧ Shown t x := by
  obtain ⟨x, hx⟩ := Option.isSome_iff_exists.mp
    (show (run Sale.step (Sale.opening (onSale 1).redis.stock (onSale 1).issued)
      soldTwice).isSome = true by decide +kernel)
  obtain ⟨as, t, has, htrace, ht⟩ := sale_is_realised (fun _ => false) (fun _ => rfl)
    (start_onSale 1) (fun _ => rfl) (fun _ => rfl) (stock_onSale (by omega))
    (fun e he => by
      simp only [soldTwice, List.mem_cons, List.not_mem_nil, or_false] at he
      rcases he with rfl | rfl | rfl | rfl <;> simp [SaleEvent.unfenced]) hx
  exact ⟨as, t, has, htrace, x, hx, ht⟩

end Hmdp.Pipeline
