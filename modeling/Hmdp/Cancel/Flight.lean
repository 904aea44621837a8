import Hmdp.Pipeline.Purchase

/-!
# Cancellations in flight

`cancelVoucherOrder` step by step over the pipeline: the select of the active order; the
conditional cancel and the stock update in an open transaction, whose writes nobody sees and whose
row locks keep every other transaction off the order row and the stock row; the cancel script; the
commit, or the rollback and then the compensation.

`Consistent` is what the locks give: an open transaction has them, so what it has written stands
until it ends.

* **`consistent_step`**: every step keeps it.
* `commit_enabled`: so a call whose script has run can commit.
-/

namespace Hmdp.Cancel.Flight

open Hmdp.Lib Hmdp.Model Hmdp.Pipeline

/-! ## The machine -/

/-- Where a call is. -/
inductive Stage where
  /-- the order has been selected -/
  | selected
  /-- the transaction has cancelled the order and returned the stock -/
  | opened
  /-- the script's reply has arrived and the compensation is registered -/
  | scripted
  /-- the script's reply was an error, or was lost -/
  | failing
  /-- the transaction is rolled back and the compensation is to run -/
  | awaiting
  deriving DecidableEq

/-- The transaction is open. -/
def Stage.isOpen : Stage → Bool
  | .opened | .scripted | .failing => true
  | .selected | .awaiting => false

/-- A cancellation under way: the order it has read, and what it has done. -/
structure Call where
  order : VoucherOrder
  stage : Stage
  deriving DecidableEq

/-- The pipeline, the calls in flight and the row locks they hold. -/
structure State where
  pipeline : Pipeline.State
  calls : ℕ → Option Call
  /-- the lock of a row of `tb_seckill_voucher` -/
  stockLock : VoucherId → Option ℕ
  /-- the lock of a row of `tb_voucher_order` -/
  orderLock : OrderId → Option ℕ

/-- The steps of the pipeline, and each statement of a cancellation. -/
inductive Action where
  | pipeline (action : Pipeline.Action)
  | select (call : ℕ) (pick : NewestFirst) (userId : UserId) (voucherId : VoucherId)
  | update (call : ℕ)
  | script (call : ℕ) (replyLost : Bool)
  | commit (call : ℕ)
  | rollback (call : ℕ)
  | compensate (call : ℕ)

/-- A consumer transaction waits for the stock row of a voucher it adds orders of, and for the
order rows its batch repeats. -/
def waits (s : State) (messages : List SeckillOrderMessage) : Bool :=
  (voucherIds (uniqueOrders messages)).any (fun v =>
      decide (freshOrders s.pipeline.db (groupOf (uniqueOrders messages) v) ≠ []) &&
        (s.stockLock v).isSome) ||
    (uniqueOrders messages).any fun o => (s.orderLock o.id).isSome

/-- The pipeline's own cancellation, in one step, gives way to the calls in flight. -/
def enabled (s : State) : Pipeline.Action → Bool
  | .selectOrder _ _ _ _ => false
  | .cancel _ => false
  | .createOrders _ messages => !waits s messages
  | _ => true

/-- `s` after call `i` has gone to `next`. -/
def State.goTo (s : State) (i : ℕ) (next : Option Call) : State :=
  { s with calls := Function.update s.calls i next }

/-- `s` with the row locks of an order held by `owner`. -/
def State.lock (s : State) (order : VoucherOrder) (owner : Option ℕ) : State :=
  { s with
    stockLock := Function.update s.stockLock order.voucherId owner
    orderLock := Function.update s.orderLock order.id owner }

/-- The pipeline with another Redis. -/
def State.withRedis (s : State) (redis : Redis) : State :=
  { s with pipeline := { s.pipeline with redis := redis } }

/-- The pipeline with other tables. -/
def State.withDb (s : State) (db : Db) : State :=
  { s with pipeline := { s.pipeline with db := db } }

/-- One step; `none` where the action is not enabled, or waits for a lock. -/
def step (rejects : Reservation → Bool) (s : State) : Action → Option State
  | .pipeline action =>
    if enabled s action then
      (Pipeline.step rejects s.pipeline action).map fun p => { s with pipeline := p }
    else none
  | .select i pick u v =>
    match s.calls i with
    | some _ => none
    | none =>
      some (s.goTo i ((selectActiveOrder pick u v s.pipeline.db).map fun o => ⟨o, .selected⟩))
  | .update i =>
    match s.calls i with
    | some ⟨order, .selected⟩ =>
      if (s.orderLock order.id).isSome ∨ (s.stockLock order.voucherId).isSome then none
      else if (cancelInTransaction order s.pipeline.db).isSome then
        some ((s.goTo i (some ⟨order, .opened⟩)).lock order (some i))
      else some (s.goTo i none)
    | _ => none
  | .script i replyLost =>
    match s.calls i with
    | some ⟨order, .opened⟩ =>
      let reply := cancelLua order.voucherId order.userId s.pipeline.redis
      let next := if replyLost = true ∨ reply.1 < 0 then Stage.failing else .scripted
      some ((s.withRedis reply.2).goTo i (some ⟨order, next⟩))
    | _ => none
  | .commit i =>
    match s.calls i with
    | some ⟨order, .scripted⟩ =>
      (cancelInTransaction order s.pipeline.db).map fun db =>
        ((s.withDb db).goTo i none).lock order none
    | _ => none
  | .rollback i =>
    match s.calls i with
    | some ⟨order, .scripted⟩ => some ((s.goTo i (some ⟨order, .awaiting⟩)).lock order none)
    | some ⟨order, .opened⟩ => some ((s.goTo i none).lock order none)
    | some ⟨order, .failing⟩ => some ((s.goTo i none).lock order none)
    | _ => none
  | .compensate i =>
    match s.calls i with
    | some ⟨order, .awaiting⟩ =>
      let redis := (cancelRollbackLua order.voucherId order.userId s.pipeline.redis).2
      some ((s.withRedis redis).goTo i none)
    | _ => none

/-- Whose step it is, among the calls. -/
def Action.call : Action → Option ℕ
  | .pipeline _ => none
  | .select i _ _ _ => some i
  | .update i => some i
  | .script i _ => some i
  | .commit i => some i
  | .rollback i => some i
  | .compensate i => some i

/-- Nothing has been sold and no call is in flight. -/
structure Start (s : State) : Prop where
  pipeline : Pipeline.Start s.pipeline
  calls : ∀ i, s.calls i = none
  stockLock : ∀ v, s.stockLock v = none
  orderLock : ∀ o, s.orderLock o = none

/-! ## The open transactions -/

variable {rejects : Reservation → Bool} {s t : State} {u : UserId} {v : VoucherId}

/-- The pipeline is coherent, and every open transaction has its locks, so that its writes stand
until it ends. -/
structure Consistent (rejects : Reservation → Bool) (s : State) : Prop where
  coherent : Coherent rejects s.pipeline
  selected : ∀ i c, s.calls i = some c → SelectedOk s.pipeline.db c.order
  locked : ∀ i c, s.calls i = some c → c.stage.isOpen = true →
    s.stockLock c.order.voucherId = some i ∧ s.orderLock c.order.id = some i
  writable : ∀ i c, s.calls i = some c → c.stage.isOpen = true →
    (cancelInTransaction c.order s.pipeline.db).isSome

theorem Start.consistent (h : Start s) : Consistent rejects s where
  coherent := h.pipeline.coherent
  selected := by simp [h.calls]
  locked := by simp [h.calls]
  writable := by simp [h.calls]

/-- An open transaction's order is a claim of its user. -/
theorem Consistent.mem_claims (h : Consistent rejects s) {i : ℕ} {c : Call}
    (hc : s.calls i = some c) (ho : c.stage.isOpen = true) :
    c.order.id ∈ claims c.order.userId c.order.voucherId s.pipeline := by
  obtain ⟨db, hdb⟩ := Option.isSome_iff_exists.mp (h.writable i c hc ho)
  have hcancel := h.coherent.cancelInTransaction hdb
  exact (@claims_cancel _ _ { s.pipeline with db := db } 0 0 _ h.coherent hcancel
    (h.selected i c hc) hdb rfl).2

/-- Two open calls of a voucher are one call. -/
theorem Consistent.open_unique (h : Consistent rejects s) {i j : ℕ} {c d : Call}
    (hi : s.calls i = some c) (hj : s.calls j = some d) (hc : c.stage.isOpen = true)
    (hd : d.stage.isOpen = true) (hv : d.order.voucherId = c.order.voucherId) : j = i := by
  have hli := (h.locked i c hi hc).1
  have hlj := (h.locked j d hj hd).1
  rw [hv, hli] at hlj
  exact (Option.some.inj hlj).symm

/-- A call goes to a stage that holds no lock. -/
theorem Consistent.goTo (h : Consistent rejects s) (i : ℕ) {next : Option Call}
    (hs : ∀ c, next = some c → SelectedOk s.pipeline.db c.order)
    (ho : ∀ c, next = some c → c.stage.isOpen = true →
      s.stockLock c.order.voucherId = some i ∧ s.orderLock c.order.id = some i ∧
        (cancelInTransaction c.order s.pipeline.db).isSome) :
    Consistent rejects (s.goTo i next) where
  coherent := h.coherent
  selected := (Function.forall_update_iff s.calls fun _ next =>
    ∀ c, next = some c → SelectedOk s.pipeline.db c.order).mpr ⟨hs, fun j _ => h.selected j⟩
  locked := (Function.forall_update_iff s.calls fun j next =>
    ∀ c, next = some c → c.stage.isOpen = true →
      s.stockLock c.order.voucherId = some j ∧ s.orderLock c.order.id = some j).mpr
        ⟨fun c hc hop => ⟨(ho c hc hop).1, (ho c hc hop).2.1⟩, fun j _ => h.locked j⟩
  writable := (Function.forall_update_iff s.calls fun _ next =>
    ∀ c, next = some c → c.stage.isOpen = true →
      (cancelInTransaction c.order s.pipeline.db).isSome).mpr
        ⟨fun c hc hop => (ho c hc hop).2.2, fun j _ => h.writable j⟩

/-- Nobody else's locks change. -/
theorem Consistent.lock (h : Consistent rejects s) (order : VoucherOrder) (owner : Option ℕ)
    (hfree : ∀ i c, s.calls i = some c → c.stage.isOpen = true →
      c.order.voucherId ≠ order.voucherId ∧ c.order.id ≠ order.id) :
    Consistent rejects (s.lock order owner) :=
  { h with
    locked := by
      intro i c hc ho
      obtain ⟨hv, hid⟩ := hfree i c hc ho
      obtain ⟨hs, hl⟩ := h.locked i c hc ho
      exact ⟨(Function.update_of_ne hv _ _).trans hs, (Function.update_of_ne hid _ _).trans hl⟩ }

/-- The rows a call has selected stay. -/
theorem selectedOk_persist {tx : Transaction} {messages : List SeckillOrderMessage}
    {os : List OrderDraft} {db db' : Db} {order : VoucherOrder}
    (h : createOrders tx messages db = .ok (os, db')) (hs : SelectedOk db order) :
    SelectedOk db' order := by
  obtain ⟨o, ho, hids⟩ := hs
  exact ⟨o, (createOrders_mem_rows h).mpr (Or.inl ho), hids⟩

/-- A consumer transaction that waits for no lock leaves an open transaction its writes. -/
theorem writable_persist {tx : Transaction} {messages : List SeckillOrderMessage}
    {os : List OrderDraft} {db' : Db} {i : ℕ} {c : Call}
    (h : createOrders tx messages s.pipeline.db = .ok (os, db')) (hw : waits s messages = false)
    (hlock : s.stockLock c.order.voucherId = some i)
    (hs : (cancelInTransaction c.order s.pipeline.db).isSome) :
    (cancelInTransaction c.order db').isSome := by
  obtain ⟨⟨r, hr, hrest⟩, n, hn, hpos⟩ := cancelInTransaction_isSome.mp hs
  refine cancelInTransaction_isSome.mpr
    ⟨⟨r, (createOrders_mem_rows h).mpr (Or.inl hr), hrest⟩, n, ?_, hpos⟩
  have hnone : freshOrders s.pipeline.db
      (groupOf (uniqueOrders messages) c.order.voucherId) = [] := by
    by_contra hne
    obtain ⟨o, ho⟩ := List.exists_mem_of_ne_nil _ hne
    obtain ⟨ho, hov⟩ := mem_groupOf.mp (mem_freshOrders.mp ho).1
    have hany : (voucherIds (uniqueOrders messages)).any (fun v =>
        decide (freshOrders s.pipeline.db (groupOf (uniqueOrders messages) v) ≠ []) &&
          (s.stockLock v).isSome) = true :=
      List.any_eq_true.mpr ⟨c.order.voucherId, mem_voucherIds.mpr ⟨o, ho, hov⟩, by
        simp [hne, hlock]⟩
    unfold waits at hw
    rw [hany] at hw
    exact absurd hw (by simp)
  rw [createOrders_stock h, hnone, hn]
  simp

theorem Consistent.pipeline {action : Pipeline.Action} {p : Pipeline.State}
    (h : Consistent rejects s) (he : enabled s action = true)
    (hstep : Pipeline.step rejects s.pipeline action = some p) :
    Consistent rejects { s with pipeline := p } := by
  refine ⟨coherent_step h.coherent hstep, ?_, h.locked, ?_⟩
  · intro i c hc
    have hs := h.selected i c hc
    cases step_effect h.coherent hstep with
    | quiet stores _ =>
      show SelectedOk p.db c.order
      unfold SelectedOk
      rwa [stores.orders]
    | reserved call n _ _ _ _ _ _ _ _ db _ =>
      show SelectedOk p.db c.order
      rwa [db]
    | persisted tx messages os _ _ created _ _ => exact selectedOk_persist created hs
    | cancelled j order n action _ _ _ _ _ _ =>
      subst action
      exact absurd he (by simp [enabled])
  · intro i c hc ho
    have hw := h.writable i c hc ho
    cases step_effect h.coherent hstep with
    | quiet stores _ =>
      rw [cancelInTransaction_isSome] at hw ⊢
      rwa [stores.orders, stores.dbStock]
    | reserved call n _ _ _ _ _ _ _ _ db _ => rwa [db]
    | persisted tx messages os action _ created _ _ =>
      subst action
      have hwaits : waits s messages = false := by simpa [enabled] using he
      exact writable_persist created hwaits (h.locked i c hc ho).1 hw
    | cancelled j order n action _ _ _ _ _ _ =>
      subst action
      exact absurd he (by simp [enabled])

/-- A Redis write that leaves the reservations. -/
theorem Consistent.withRedis {redis : Redis} (h : Consistent rejects s)
    (hh : redis.handoff = s.pipeline.redis.handoff)
    (hq : redis.quarantine = s.pipeline.redis.quarantine)
    (ha : redis.accepted = s.pipeline.redis.accepted) : Consistent rejects (s.withRedis redis) :=
  { h with coherent := h.coherent.of_redis hh hq ha }

theorem Consistent.script (h : Consistent rejects s) (v : VoucherId) (u : UserId) :
    Consistent rejects (s.withRedis (cancelLua v u s.pipeline.redis).2) := by
  rcases cancelLua_cases v u s.pipeline.redis with ⟨-, heq⟩ | ⟨n, -, -, heq⟩
  · rw [heq]
    exact h
  · rw [heq]
    exact h.withRedis rfl rfl rfl

theorem Consistent.compensate (h : Consistent rejects s) (v : VoucherId) (u : UserId) :
    Consistent rejects (s.withRedis (cancelRollbackLua v u s.pipeline.redis).2) := by
  rcases cancelRollbackLua_cases v u s.pipeline.redis with ⟨-, heq⟩ | ⟨n, -, -, heq⟩
  · rw [heq]
    exact h
  · rw [heq]
    exact h.withRedis rfl rfl rfl

/-- The commit of a call leaves the other open transactions their writes. -/
theorem Consistent.commit (h : Consistent rejects s) {i : ℕ} {order : VoucherOrder} {db : Db}
    (hi : s.calls i = some ⟨order, .scripted⟩)
    (hdb : cancelInTransaction order s.pipeline.db = some db) :
    Consistent rejects (((s.withDb db).goTo i none).lock order none) := by
  obtain ⟨-, hrows, ⟨n, hn, hstock⟩, -⟩ := cancelInTransaction_some hdb
  have hother : ∀ j c, (s.goTo i none).calls j = some c → c.stage.isOpen = true →
      s.calls j = some c ∧ c.order.voucherId ≠ order.voucherId ∧ c.order.id ≠ order.id := by
    intro j c hc ho
    have hji : j ≠ i := by
      rintro rfl
      exact absurd hc (by simp [State.goTo])
    rw [show (s.goTo i none).calls j = s.calls j from Function.update_of_ne hji _ _] at hc
    refine ⟨hc, fun hv => hji (h.open_unique hi hc rfl ho hv), fun hid => hji ?_⟩
    have hli := (h.locked i _ hi rfl).2
    have hlj := (h.locked j c hc ho).2
    rw [hid, hli] at hlj
    exact (Option.some.inj hlj).symm
  have hselected : ∀ j c, (s.goTo i none).calls j = some c → SelectedOk db c.order := by
    intro j c hc
    have hji : j ≠ i := by
      rintro rfl
      exact absurd hc (by simp [State.goTo])
    rw [show (s.goTo i none).calls j = s.calls j from Function.update_of_ne hji _ _] at hc
    obtain ⟨o, ho, hid, hu, hv⟩ := h.selected j c hc
    obtain ⟨hid', hu', hv'⟩ := cancelRow_ids order.id order.userId o
    refine ⟨_, ?_, hid'.trans hid, hu'.trans hu, hv'.trans hv⟩
    rw [hrows]
    exact List.mem_map_of_mem ho
  refine ⟨h.coherent.cancelInTransaction hdb, hselected, ?_, ?_⟩
  · intro j c hc ho
    obtain ⟨hj, hv, hid⟩ := hother j c hc ho
    obtain ⟨hs, hl⟩ := h.locked j c hj ho
    exact ⟨(Function.update_of_ne hv _ _).trans hs, (Function.update_of_ne hid _ _).trans hl⟩
  · intro j c hc ho
    obtain ⟨hj, hv, hid⟩ := hother j c hc ho
    show (cancelInTransaction c.order db).isSome
    obtain ⟨⟨r, hr, hrid, hru, hrc⟩, m, hm, hpos⟩ :=
      cancelInTransaction_isSome.mp (h.writable j c hj ho)
    refine cancelInTransaction_isSome.mpr ⟨⟨r, ?_, hrid, hru, hrc⟩, m, ?_, hpos⟩
    · have hkeep : cancelRow order.id order.userId r = r := by
        rw [cancelRow, if_neg fun hc => hid (hrid.symm.trans hc.1)]
      rw [hrows, ← hkeep]
      exact List.mem_map_of_mem hr
    · rw [hstock, Function.update_of_ne hv, hm]

/-- A call ends its transaction and gives up its locks. -/
theorem Consistent.release (h : Consistent rejects s) {i : ℕ} {c : Call} {next : Option Call}
    (hi : s.calls i = some c) (ho : c.stage.isOpen = true)
    (hn : next = none ∨ next = some ⟨c.order, .awaiting⟩) :
    Consistent rejects ((s.goTo i next).lock c.order none) := by
  have hgo : Consistent rejects (s.goTo i next) := by
    refine h.goTo i (fun d hd => ?_) fun d hd hop => ?_
    · rcases hn with rfl | rfl
      · exact absurd hd (by simp)
      · cases hd
        exact h.selected i c hi
    · rcases hn with rfl | rfl
      · exact absurd hd (by simp)
      · cases hd
        exact absurd hop (by simp [Stage.isOpen])
  refine hgo.lock c.order none fun j d hd hop => ?_
  have hji : j ≠ i := by
    rintro rfl
    rw [show (s.goTo j next).calls j = next from Function.update_self _ _ _] at hd
    rcases hn with rfl | rfl
    · exact absurd hd (by simp)
    · cases hd
      exact absurd hop (by simp [Stage.isOpen])
  rw [show (s.goTo i next).calls j = s.calls j from Function.update_of_ne hji _ _] at hd
  refine ⟨fun hv => hji (h.open_unique hi hd ho hop hv), fun hid => hji ?_⟩
  have hli := (h.locked i c hi ho).2
  have hlj := (h.locked j d hd hop).2
  rw [hid, hli] at hlj
  exact (Option.some.inj hlj).symm

/-- A call opens its transaction on rows nobody has locked. -/
theorem Consistent.update (h : Consistent rejects s) {i : ℕ} {order : VoucherOrder}
    (hi : s.calls i = some ⟨order, .selected⟩) (hl : s.orderLock order.id = none)
    (hv : s.stockLock order.voucherId = none)
    (hw : (cancelInTransaction order s.pipeline.db).isSome) :
    Consistent rejects ((s.goTo i (some ⟨order, .opened⟩)).lock order (some i)) := by
  -- the locks are taken first, then the call moves on
  have hlock : Consistent rejects (s.lock order (some i)) := by
    refine h.lock order (some i) fun j c hc ho => ?_
    obtain ⟨hs, hl'⟩ := h.locked j c hc ho
    refine ⟨fun he => ?_, fun he => ?_⟩
    · rw [he, hv] at hs
      exact absurd hs (by simp)
    · rw [he, hl] at hl'
      exact absurd hl' (by simp)
  refine hlock.goTo i (fun c hc => ?_) fun c hc _ => ?_
  · cases hc
    exact h.selected i ⟨order, .selected⟩ hi
  · cases hc
    exact ⟨Function.update_self _ _ _, Function.update_self _ _ _, hw⟩

/-- **Every step keeps the open transactions consistent.** -/
theorem consistent_step {a : Action} (h : Consistent rejects s)
    (hstep : step rejects s a = some t) : Consistent rejects t := by
  cases a with
  | pipeline action =>
    simp only [step] at hstep
    split at hstep
    · rename_i he
      obtain ⟨p, hp, rfl⟩ := Option.map_eq_some_iff.mp hstep
      exact h.pipeline he hp
    · exact absurd hstep (by simp)
  | select i pick u v =>
    simp only [step] at hstep
    split at hstep
    · exact absurd hstep (by simp)
    · cases hstep
      refine h.goTo i (fun c hc => ?_) fun c hc ho => ?_
      · obtain ⟨o, ho, rfl⟩ := Option.map_eq_some_iff.mp hc
        exact ⟨o, (mem_liveOrders.mp (pick.mem ho)).1, rfl, rfl, rfl⟩
      · obtain ⟨o, -, rfl⟩ := Option.map_eq_some_iff.mp hc
        exact absurd ho (by simp [Stage.isOpen])
  | update i =>
    simp only [step] at hstep
    split at hstep
    · rename_i order hi
      split at hstep
      · exact absurd hstep (by simp)
      rename_i hfree
      rw [not_or, Option.not_isSome_iff_eq_none, Option.not_isSome_iff_eq_none] at hfree
      split at hstep
      · rename_i hw
        cases hstep
        exact h.update hi hfree.1 hfree.2 hw
      · cases hstep
        exact h.goTo i (by simp) (by simp)
    · exact absurd hstep (by simp)
  | script i replyLost =>
    simp only [step] at hstep
    split at hstep
    · rename_i order hi
      cases hstep
      refine (h.script order.voucherId order.userId).goTo i (fun c hc => ?_) fun c hc _ => ?_
      · cases hc
        exact h.selected i ⟨order, .opened⟩ hi
      · cases hc
        obtain ⟨hs, hl⟩ := h.locked i _ hi rfl
        exact ⟨hs, hl, h.writable i ⟨order, .opened⟩ hi rfl⟩
    · exact absurd hstep (by simp)
  | commit i =>
    simp only [step] at hstep
    split at hstep
    · rename_i order hi
      obtain ⟨db, hdb, rfl⟩ := Option.map_eq_some_iff.mp hstep
      exact h.commit hi hdb
    · exact absurd hstep (by simp)
  | rollback i =>
    simp only [step] at hstep
    split at hstep
    · rename_i order hi
      cases hstep
      exact h.release hi rfl (Or.inr rfl)
    · rename_i order hi
      cases hstep
      exact h.release hi rfl (Or.inl rfl)
    · rename_i order hi
      cases hstep
      exact h.release hi rfl (Or.inl rfl)
    · exact absurd hstep (by simp)
  | compensate i =>
    simp only [step] at hstep
    split at hstep
    · rename_i order hi
      cases hstep
      exact (h.compensate order.voucherId order.userId).goTo i (by simp) (by simp)
    · exact absurd hstep (by simp)

/-- **An open transaction whose script has run can commit.** -/
theorem commit_enabled (h : Consistent rejects s) {i : ℕ} {order : VoucherOrder}
    (hi : s.calls i = some ⟨order, .scripted⟩) : (step rejects s (.commit i)).isSome := by
  simp only [step, hi, Option.isSome_map]
  exact h.writable i _ hi rfl

/-! ## Calls move by their own steps only -/

theorem goTo_calls_of_ne {i j : ℕ} (h : some i ≠ some j) (next : Option Call) :
    (s.goTo i next).calls j = s.calls j :=
  Function.update_of_ne (fun he => h (congrArg some he.symm)) _ _

theorem step_calls {a : Action} {j : ℕ} (hj : a.call ≠ some j)
    (hstep : step rejects s a = some t) : t.calls j = s.calls j := by
  cases a with
  | pipeline action =>
    simp only [step] at hstep
    split at hstep
    · obtain ⟨p, -, rfl⟩ := Option.map_eq_some_iff.mp hstep
      rfl
    · exact absurd hstep (by simp)
  | select i pick u v =>
    simp only [step] at hstep
    split at hstep <;> cases hstep
    exact goTo_calls_of_ne hj _
  | update i =>
    simp only [step] at hstep
    split at hstep
    · split at hstep
      · exact absurd hstep (by simp)
      · split at hstep <;> cases hstep <;> exact goTo_calls_of_ne hj _
    · exact absurd hstep (by simp)
  | script i replyLost =>
    simp only [step] at hstep
    split at hstep <;> cases hstep
    exact goTo_calls_of_ne hj _
  | commit i =>
    simp only [step] at hstep
    split at hstep
    · obtain ⟨db, -, rfl⟩ := Option.map_eq_some_iff.mp hstep
      exact goTo_calls_of_ne hj _
    · exact absurd hstep (by simp)
  | rollback i =>
    simp only [step] at hstep
    split at hstep <;> cases hstep <;> exact goTo_calls_of_ne hj _
  | compensate i =>
    simp only [step] at hstep
    split at hstep <;> cases hstep
    exact goTo_calls_of_ne hj _

theorem run_calls {as : List Action} {j : ℕ} (hj : ∀ a ∈ as, a.call ≠ some j)
    (hrun : run (step rejects) s as = some t) : t.calls j = s.calls j :=
  run_invariant (P := fun _ a => a.call ≠ some j) (I := fun u => u.calls j = s.calls j)
    (fun _ _ _ ha hs hstep => (step_calls ha hstep).trans hs)
    (along_of_forall (fun a ha _ => hj a ha) s) rfl hrun

end Hmdp.Cancel.Flight
