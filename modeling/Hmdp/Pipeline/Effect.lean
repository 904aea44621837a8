import Hmdp.Pipeline.Handover
import Mathlib.Data.Finset.Option
import Mathlib.Data.Finset.Union

/-!
# What a step can do to stocks, members and orders

Of all the actions only three touch the stocks, the purchased sets, the order rows or the set of
accepted orders: an accepted `seckill.lua` call, a consumer transaction and a committed
cancellation. `step_effect` says so once, with everything these three do; the invariants about
stock and purchases are proved from it and never look at the other actions.

The outstanding reservations of a voucher are read off the stores as the reconciliation does. In
a coherent state they are the accepted orders without an order row (`mem_outstanding`).
-/

namespace Hmdp.Pipeline

open Hmdp.Lib Hmdp.Model

variable {rejects : Reservation → Bool} {s t : State}

/-! ## Outstanding reservations -/

/-- The orders of the handoff set. -/
def handoffReservations (v : VoucherId) (redis : Redis) : Finset Reservation :=
  ((redis.handoff v).members.filterMap (parseMember v)).toFinset

/-- The quarantined orders. -/
def quarantineReservations (v : VoucherId) (redis : Redis) : Finset Reservation :=
  (redis.quarantine.filter fun q => q.voucherId = v).biUnion fun q =>
    (parseMember v q.member).toFinset

/-- The orders of the outbox. -/
def outboxReservations (v : VoucherId) (db : Db) : Finset Reservation :=
  ((db.outbox.rows.filter fun e => decide (e.voucherId = v)).map fun e => e.reservation).toFinset

/-- The reservations that have no order row. -/
def outstanding (v : VoucherId) (s : State) : Finset Reservation :=
  (handoffReservations v s.redis ∪ quarantineReservations v s.redis ∪
    outboxReservations v s.db).filter fun r => s.db.hasOrder r.orderId = false

/-- Their order ids. -/
def outstandingIds (v : VoucherId) (s : State) : Finset OrderId :=
  (outstanding v s).image Reservation.orderId

namespace Coherent

variable {v : VoucherId} {r : Reservation}

theorem mem_handoffReservations (h : Coherent rejects s) :
    r ∈ handoffReservations v s.redis ↔
      r ∈ s.granted ∧ r.voucherId = v ∧ InHandoff s.redis r := by
  simp only [handoffReservations, List.mem_toFinset, List.mem_filterMap]
  constructor
  · rintro ⟨m, hm, hp⟩
    obtain ⟨r', hr', rfl, rfl⟩ := h.handoff v m hm
    rw [parseMember_member, Option.some.injEq] at hp
    subst hp
    exact ⟨hr', rfl, hm⟩
  · rintro ⟨-, rfl, hin⟩
    exact ⟨r.member, hin, parseMember_member r⟩

theorem mem_quarantineReservations (h : Coherent rejects s) :
    r ∈ quarantineReservations v s.redis ↔
      r ∈ s.granted ∧ r.voucherId = v ∧ InQuarantine s.redis r := by
  simp only [quarantineReservations, Finset.mem_biUnion, Finset.mem_filter, Option.mem_toFinset,
    Option.mem_def]
  constructor
  · rintro ⟨q, ⟨hq, rfl⟩, hp⟩
    obtain ⟨r', hr', hv, hm, -⟩ := h.quarantine q hq
    rw [← hv, ← hm, parseMember_member, Option.some.injEq] at hp
    subst hp
    exact ⟨hr', hv, q.reason, by rwa [hv, hm]⟩
  · rintro ⟨-, rfl, reason, hq⟩
    exact ⟨_, ⟨hq, rfl⟩, parseMember_member r⟩

theorem mem_outboxReservations (h : Coherent rejects s) :
    r ∈ outboxReservations v s.db ↔ r ∈ s.granted ∧ r.voucherId = v ∧ InOutbox s.db r := by
  simp only [outboxReservations, List.mem_toFinset, List.mem_map, List.mem_filter,
    decide_eq_true_eq]
  constructor
  · rintro ⟨e, ⟨he, hv⟩, rfl⟩
    exact ⟨(h.outbox e he).1, hv, e, he, rfl⟩
  · rintro ⟨-, hv, e, he, rfl⟩
    exact ⟨e, ⟨he, hv⟩, rfl⟩

/-- **The outstanding reservations are the accepted orders without an order row.** -/
theorem mem_outstanding (h : Coherent rejects s) :
    r ∈ outstanding v s ↔
      r ∈ s.granted ∧ r.voucherId = v ∧ s.db.hasOrder r.orderId = false := by
  simp only [outstanding, Finset.mem_filter, Finset.mem_union, h.mem_handoffReservations,
    h.mem_quarantineReservations, h.mem_outboxReservations]
  constructor
  · rintro ⟨(⟨hg, hv, -⟩ | ⟨hg, hv, -⟩) | ⟨hg, hv, -⟩, hn⟩ <;> exact ⟨hg, hv, hn⟩
  · rintro ⟨hg, hv, hn⟩
    rcases h.custody r hg with hc | hc | hc
    · exact ⟨Or.inl (Or.inl ⟨hg, hv, hc⟩), hn⟩
    · exact ⟨Or.inl (Or.inr ⟨hg, hv, hc⟩), hn⟩
    · exact ⟨Or.inr ⟨hg, hv, hc⟩, hn⟩

theorem mem_outstandingIds (h : Coherent rejects s) {o : OrderId} :
    o ∈ outstandingIds v s ↔
      ∃ r ∈ s.granted, r.voucherId = v ∧ r.orderId = o ∧ s.db.hasOrder o = false := by
  simp only [outstandingIds, Finset.mem_image, h.mem_outstanding]
  constructor
  · rintro ⟨r, ⟨hg, hv, hn⟩, rfl⟩
    exact ⟨r, hg, hv, rfl, hn⟩
  · rintro ⟨r, hg, hv, rfl, hn⟩
    exact ⟨r, ⟨hg, hv, hn⟩, rfl⟩

end Coherent

/-! ## The effect of a step -/

/-- Nothing happens to stocks, members and orders. -/
structure Quiet (redis redis' : Redis) (db db' : Db) : Prop where
  stock : redis'.stock = redis.stock
  purchased : redis'.purchased = redis.purchased
  recovery : redis'.recovery = redis.recovery
  staging : redis'.staging = redis.staging
  dbStock : db'.stock = db.stock
  orders : db'.orders = db.orders
  grows : Grows db db'

theorem Quiet.refl (redis : Redis) (db : Db) : Quiet redis redis db db :=
  ⟨rfl, rfl, rfl, rfl, rfl, rfl, Grows.refl db⟩

/-- What one step does to the stores and to what has been granted, a constructor a case. -/
inductive Effect (a : Action) (s t : State) : Prop
  | quiet (stores : Quiet s.redis t.redis s.db t.db) (granted : t.granted = s.granted)
  | reserved (c : SeckillCall) (n : ℤ) (action : a = .seckill c)
      (accepted : (seckillLua c s.redis).1 = 0) (fresh : c.orderId ∉ s.issued)
      (stock : s.redis.stock c.voucherId = some n) (positive : 0 < n)
      (notPurchased : c.userId ∉ s.redis.purchased c.voucherId)
      (open_ : s.redis.recovery c.voucherId = none) (redis : t.redis = s.redis.reserve c n)
      (db : t.db = s.db) (granted : t.granted = c.reservation :: s.granted)
  | persisted (tx : Transaction) (messages : List SeckillOrderMessage) (os : List OrderDraft)
      (action : a = .createOrders tx messages) (sent : ∀ m ∈ messages, m ∈ s.kafka)
      (created : createOrders tx messages s.db = .ok (os, t.db)) (redis : t.redis = s.redis)
      (granted : t.granted = s.granted)
  | cancelled (i : ℕ) (order : VoucherOrder) (n : ℤ) (action : a = .cancel i)
      (committed : s.cancels i = some order ∧
        cancelCommitted order s.redis s.db = some (t.redis, t.db))
      (selected : SelectedOk s.db order)
      (cancel : cancelInTransaction order s.db = some t.db)
      (stock : s.redis.stock order.voucherId = some n)
      (redis : t.redis = { s.redis with
        purchased := Function.update s.redis.purchased order.voucherId
          ((s.redis.purchased order.voucherId).erase order.userId)
        stock := Function.update s.redis.stock order.voucherId (some (n + 1)) })
      (granted : t.granted = s.granted)

theorem quiet_handoffComplete (v : VoucherId) (arguments : List (Text × OrderId)) (redis : Redis)
    (db : Db) : Quiet redis (handoffComplete v arguments redis).2 db db := by
  rw [(handoffComplete_snd v arguments redis).2]
  exact ⟨rfl, rfl, rfl, rfl, rfl, rfl, Grows.refl db⟩

theorem quiet_insertCommitted {events accepted : List SeckillOrderOutboxEvent} (redis : Redis)
    {db db' : Db} (h : insertCommitted rejects events db = .ok (accepted, db')) :
    Quiet redis redis db db' := by
  have hg := Grows.insertCommitted h
  rw [(insertCommitted_ok h).2.1] at hg ⊢
  exact ⟨rfl, rfl, rfl, rfl, rfl, rfl, hg⟩

theorem quiet_runTask {task : RelayTask} {more : List RelayTask} {redis redis' : Redis}
    {db db' : Db} (h : runTask rejects task redis db = some (more, redis', db')) :
    Quiet redis redis' db db' := by
  unfold runTask at h
  cases task with
  | quarantine v m reason =>
    simp only [Option.some.injEq, Prod.mk.injEq] at h
    obtain ⟨-, rfl, rfl⟩ := h
    rcases handoffQuarantine_cases v m reason redis with ⟨-, heq⟩ | ⟨-, heq⟩
    · rw [heq]
      exact Quiet.refl redis db
    · rw [heq]
      exact ⟨rfl, rfl, rfl, rfl, rfl, rfl, Grows.refl db⟩
  | persist v events members =>
    simp only at h
    split at h
    · cases h
      exact Quiet.refl redis db
    · split at h
      · rename_i hok
        cases h
        exact quiet_insertCommitted redis hok
      · cases h
        exact Quiet.refl redis db
  | complete v events members =>
    obtain ⟨⟨n, redis''⟩, hb, hres⟩ := Option.map_eq_some_iff.mp h
    simp only [Prod.mk.injEq] at hres
    obtain ⟨-, rfl, rfl⟩ := hres
    unfold completeBatch at hb
    split at hb
    · cases hb
      exact Quiet.refl _ _
    · split at hb
      · exact absurd hb (by simp)
      · have heq : (handoffComplete v (completeArguments events members) redis).2 = redis'' :=
          congrArg Prod.snd (Option.some.inj hb)
        rw [← heq]
        exact quiet_handoffComplete v _ redis db

theorem quiet_updateOutbox (sel : OutboxRow → Bool) (f : OutboxUpdate) (redis : Redis) (db : Db) :
    Quiet redis redis db (updateOutbox sel f db).2 :=
  ⟨rfl, rfl, rfl, rfl, rfl, rfl, Grows.updateOutbox sel f db⟩

/-- The committed cancellation of a selected order. -/
theorem cancelCommitted_some {order : VoucherOrder} {redis redis' : Redis} {db db' : Db}
    (h : cancelCommitted order redis db = some (redis', db')) :
    cancelInTransaction order db = some db' ∧ ∃ n, redis.stock order.voucherId = some n ∧
      redis' = { redis with
        purchased := Function.update redis.purchased order.voucherId
          ((redis.purchased order.voucherId).erase order.userId)
        stock := Function.update redis.stock order.voucherId (some (n + 1)) } := by
  obtain ⟨d, hdb, hrest⟩ := Option.bind_eq_some_iff.mp h
  simp only at hrest
  split at hrest
  · exact absurd hrest (by simp)
  rename_i hcode
  simp only [Option.some.injEq, Prod.mk.injEq] at hrest
  obtain ⟨rfl, rfl⟩ := hrest
  rcases cancelLua_cases order.voucherId order.userId redis with ⟨-, heq⟩ | ⟨n, hn, -, heq⟩
  · rw [heq] at hcode
    exact absurd (show (-1 : ℤ) < 0 by omega) hcode
  · exact ⟨hdb, n, hn, heq⟩

/-- **What a step can do.** -/
theorem step_effect {a : Action} (h : Coherent rejects s) (hstep : step rejects s a = some t) :
    Effect a s t := by
  cases a with
  | seckill c =>
    simp only [step] at hstep
    split at hstep
    · exact absurd hstep (by simp)
    rename_i hfresh
    rcases seckillLua_cases c s.redis with ⟨hcode, hsame⟩ | ⟨hcode, n, hn, hpos, hu, hopen, hres⟩
    · rw [if_neg hcode, hsame] at hstep
      cases hstep
      exact .quiet (Quiet.refl _ _) rfl
    · rw [if_pos hcode, hres] at hstep
      cases hstep
      exact .reserved c n rfl hcode hfresh hn hpos hu hopen rfl rfl rfl
  | configure activity accessToken =>
    cases hstep
    exact .quiet ⟨rfl, rfl, rfl, rfl, rfl, rfl, Grows.refl s.db⟩ rfl
  | fetch i v limit now =>
    simp only [step] at hstep
    split at hstep
    · exact absurd hstep (by simp)
    · cases hstep
      exact .quiet (Quiet.refl _ _) rfl
  | relayTask i =>
    simp only [step] at hstep
    split at hstep
    · exact absurd hstep (by simp)
    split at hstep
    · cases hstep
      exact .quiet (Quiet.refl _ _) rfl
    · rename_i hrun
      cases hstep
      exact .quiet (quiet_runTask hrun) rfl
  | crash i =>
    cases hstep
    exact .quiet (Quiet.refl _ _) rfl
  | accept batch now =>
    simp only [step] at hstep
    split at hstep
    · split at hstep
      · cases hstep
        exact .quiet (Quiet.refl _ _) rfl
      · rename_i hok
        cases hstep
        exact .quiet (quiet_insertCommitted s.redis hok) rfl
    · exact absurd hstep (by simp)
  | completeHandoff r =>
    simp only [step] at hstep
    split at hstep
    · cases hstep
      exact .quiet (quiet_handoffComplete _ _ _ _) rfl
    · exact absurd hstep (by simp)
  | claimRelayBatch ids owner leaseUntil now =>
    cases hstep
    exact .quiet (quiet_updateOutbox _ _ _ _) rfl
  | markSentBatch ids owner nextCheckTime now =>
    cases hstep
    exact .quiet (quiet_updateOutbox _ _ _ _) rfl
  | scheduleRetryBatch ids owner nextRetryTime lastError now =>
    cases hstep
    exact .quiet (quiet_updateOutbox _ _ _ _) rfl
  | send row withOutboxId =>
    simp only [step] at hstep
    split at hstep
    · cases hstep
      exact .quiet (Quiet.refl _ _) rfl
    · exact absurd hstep (by simp)
  | createOrders tx messages =>
    simp only [step] at hstep
    split at hstep
    · rename_i hsent
      split at hstep
      · cases hstep
        exact .quiet (Quiet.refl _ _) rfl
      · rename_i hok
        cases hstep
        exact .persisted tx messages _ rfl hsent hok rfl rfl
    · exact absurd hstep (by simp)
  | readDeadLetter i message =>
    simp only [step] at hstep
    split at hstep
    · split at hstep <;> cases hstep <;> exact .quiet (Quiet.refl _ _) rfl
    · exact absurd hstep (by simp)
  | readManualReview i event =>
    simp only [step] at hstep
    split at hstep
    · cases hstep
      exact .quiet (Quiet.refl _ _) rfl
    · exact absurd hstep (by simp)
  | retryLookup i =>
    simp only [step] at hstep
    split at hstep
    · cases hstep
      exact .quiet (Quiet.refl _ _) rfl
    · exact absurd hstep (by simp)
  | retryUpdate i backoff reason localNow now =>
    simp only [step] at hstep
    split at hstep
    · rename_i event deadLetter orderExists hi
      cases hstep
      refine .quiet ?_ rfl
      cases orderExists
      · exact quiet_updateOutbox _ _ _ _
      · exact quiet_updateOutbox _ _ _ _
    · exact absurd hstep (by simp)
  | retryThrow i =>
    simp only [step] at hstep
    split at hstep
    · cases hstep
      exact .quiet (Quiet.refl _ _) rfl
    · exact absurd hstep (by simp)
  | markManualReview i reason now =>
    simp only [step] at hstep
    split at hstep
    · cases hstep
      exact .quiet (quiet_updateOutbox _ _ _ _) rfl
    · exact absurd hstep (by simp)
  | selectOrder i pick u v =>
    simp only [step] at hstep
    split at hstep
    · exact absurd hstep (by simp)
    · cases hstep
      exact .quiet (Quiet.refl _ _) rfl
  | cancel i =>
    simp only [step] at hstep
    split at hstep
    · exact absurd hstep (by simp)
    rename_i order hi
    split at hstep
    · cases hstep
      exact .quiet (Quiet.refl _ _) rfl
    · rename_i hc
      cases hstep
      obtain ⟨hdb, n, hn, hredis⟩ := cancelCommitted_some hc
      exact .cancelled i order n rfl ⟨hi, hc⟩ (h.cancels i order hi) hdb hn hredis rfl

/-! ## The handoff sets -/

/-- What a step does to the handoff sets. -/
inductive HandoffEffect (rejects : Reservation → Bool) (s t : State) : Prop
  | kept (handoff : t.redis.handoff = s.redis.handoff)
  | reserved (c : SeckillCall) (n : ℤ) (open_ : s.redis.recovery c.voucherId = none)
      (redis : t.redis = s.redis.reserve c n)
  | completed (v : VoucherId) (rs : List Reservation) (voucher : ∀ r ∈ rs, r.voucherId = v)
      (committed : ∀ r ∈ rs, InOutbox s.db r)
      (redis : t.redis = (handoffComplete v (rs.map fun r => (r.member, r.orderId)) s.redis).2)
  | quarantined (r : Reservation) (reason : QuarantineReason) (rejected : rejects r = true)
      (redis : t.redis = (handoffQuarantine r.voucherId r.member reason s.redis).2)

theorem handoffEffect_runTask {i : ℕ} {task : RelayTask} {rest more : List RelayTask}
    (h : Coherent rejects s) (hi : s.relays i = task :: rest)
    (hrun : runTask rejects task s.redis s.db = some (more, t.redis, t.db)) :
    HandoffEffect rejects s t := by
  have htask : TaskOk rejects s.granted s.db task := h.relays i task (by simp [hi])
  unfold runTask at hrun
  cases task with
  | quarantine v m reason =>
    simp only [Option.some.injEq, Prod.mk.injEq] at hrun
    obtain ⟨r, -, rfl, rfl, hrej⟩ := htask
    exact .quarantined r reason hrej hrun.2.1.symm
  | persist v events members =>
    simp only at hrun
    split at hrun
    · simp only [Option.some.injEq, Prod.mk.injEq] at hrun
      exact .kept (by rw [← hrun.2.1])
    · split at hrun <;>
      · simp only [Option.some.injEq, Prod.mk.injEq] at hrun
        exact .kept (by rw [← hrun.2.1])
  | complete v events members =>
    obtain ⟨⟨n, redis'⟩, hb, hres⟩ := Option.map_eq_some_iff.mp hrun
    simp only [Prod.mk.injEq] at hres
    rcases completeBatch_cases htask.1 hb with heq | heq
    · exact .kept (by rw [← hres.2.1, heq])
    · refine .completed v (events.map SeckillOrderOutboxEvent.reservation) ?_ ?_
        (hres.2.1.symm.trans heq)
      · intro r hr
        obtain ⟨e, he, rfl⟩ := List.mem_map.mp hr
        exact htask.1.voucherId e he
      · intro r hr
        obtain ⟨e, he, rfl⟩ := List.mem_map.mp hr
        exact htask.2 e he

/-- **How members come and go.** -/
theorem step_handoff {a : Action} (h : Coherent rejects s) (hstep : step rejects s a = some t) :
    HandoffEffect rejects s t := by
  cases a with
  | seckill c =>
    simp only [step] at hstep
    split at hstep
    · exact absurd hstep (by simp)
    rcases seckillLua_cases c s.redis with ⟨hcode, hsame⟩ | ⟨hcode, n, -, -, -, hopen, hres⟩
    · rw [hsame] at hstep
      cases hstep
      exact .kept rfl
    · rw [hres] at hstep
      cases hstep
      exact .reserved c n hopen rfl
  | relayTask i =>
    simp only [step] at hstep
    split at hstep
    · exact absurd hstep (by simp)
    rename_i task rest hi
    split at hstep
    · cases hstep
      exact .kept rfl
    · rename_i hrun
      cases hstep
      exact handoffEffect_runTask h hi hrun
  | completeHandoff r =>
    simp only [step] at hstep
    split at hstep
    · rename_i hr
      cases hstep
      refine .completed r.voucherId [r] ?_ ?_ rfl
      · intro r' hr'
        rw [List.mem_singleton.mp hr']
      · intro r' hr'
        rw [List.mem_singleton.mp hr']
        exact h.acks r hr
    · exact absurd hstep (by simp)
  | cancel i =>
    simp only [step] at hstep
    split at hstep
    · exact absurd hstep (by simp)
    split at hstep
    · cases hstep
      exact .kept rfl
    · rename_i hc
      cases hstep
      obtain ⟨-, n, -, hredis⟩ := cancelCommitted_some hc
      exact .kept (by rw [hredis])
  | configure activity accessToken =>
    cases hstep
    exact .kept rfl
  | _ => exact .kept (by rw [step_redis rfl hstep])

end Hmdp.Pipeline
