import Hmdp.Pipeline.Conservation
import Hmdp.Reconcile.Held

/-!
# What a reconciliation counts

The expected stock is the MySQL stock less what four reads find outstanding: the stock itself, read
with the list of vouchers; the outbox; the handoff set; and, member by member, whether an outbox
row has come in meanwhile. Whatever stock there is to find (a `Target`), as long as it stays the
same while a call has its recovery key, what the call has counted and what it still has to look up
make up the stock it was given (`Counted`), and what it writes at the end is the target.

That needs three things (`Undisturbed`). The stock it was given is still the MySQL stock when it
reads the outbox; no cancellation of the voucher commits from then on; and no order gets its outbox
row between that read and its own lookup, for it is then in neither.

* **`held_counted`**: what the calls have counted is carried on by every such step.
-/

namespace Hmdp.Reconcile

open Hmdp.Lib Hmdp.Model Hmdp.Pipeline

variable {rejects : Reservation → Bool} {batchSize : ℕ} {v : VoucherId}
  {target : VoucherId → Pipeline.State → Option ℤ}

/-! ## What a call has counted -/

/-- The members a call has still to look up. -/
def Phase.pending : Phase → Text → Prop
  | .outboxRead _ _, _ => True
  | .ordersRead _ _, _ => True
  | .merging _ _ members _, m => m ∈ members
  | _, _ => False

/-- The call has read the outbox, and has not failed. -/
def Phase.counting : Phase → Prop
  | .locked | .failed | .unstaged => False
  | _ => True

open scoped Classical in
/-- The accepted orders of `v` without an outbox row whose member `p` selects. -/
noncomputable def unchecked (v : VoucherId) (p : Text → Prop) (s : Pipeline.State) :
    Finset Reservation :=
  s.granted.toFinset.filter fun r => r.voucherId = v ∧ ¬InOutbox s.db r ∧ p r.member

/-- The stock to find, the reserved orders, those counted in the handoff set and those still to be
looked up make up the stock the call was given. -/
structure Tally (stock : Option ℤ) (v : VoucherId) (mysqlStock : ℤ)
    (reservedOrderIds : LinkedSet OrderId) (handoffOnly : ℕ) (p : Text → Prop)
    (s : Pipeline.State) : Prop where
  reserved : ∀ o ∈ reservedOrderIds.elements, ∃ r, InOutbox s.db r ∧ r.orderId = o
  balance : stock =
    some (mysqlStock - reservedOrderIds.size - handoffOnly - (unchecked v p s).card)

/-- **What the local variables of a call say of the stock to find.** -/
def Counted (target : VoucherId → Pipeline.State → Option ℤ) (s : Pipeline.State)
    (c : Rebuild) : Prop :=
  let stock := target c.voucherId s
  match c.phase with
  | .outboxRead reservedOrderIds _ =>
    Tally stock c.voucherId c.mysqlStock reservedOrderIds 0 (fun _ => True) s
  | .ordersRead reservedOrderIds _ =>
    Tally stock c.voucherId c.mysqlStock reservedOrderIds 0 (fun _ => True) s
  | .merging reservedOrderIds _ members handoffOnly =>
    Tally stock c.voucherId c.mysqlStock reservedOrderIds handoffOnly (· ∈ members) s ∧
      members.Nodup ∧ ∀ m ∈ members, ∃ r ∈ s.granted, r.voucherId = c.voucherId ∧ r.member = m
  | .renewed _ expectedStock | .cleared _ expectedStock | .sentinelAdded _ expectedStock
  | .writing _ expectedStock | .written _ expectedStock => stock.map (max 0) = some expectedStock
  | .locked | .failed | .unstaged => True

/-! ## The steps that leave a call undisturbed -/

/-- The step commits a cancellation of the voucher. -/
def Cancels (v : VoucherId) (action : Pipeline.Action) (s : Pipeline.State) : Prop :=
  ∃ i order, action = .cancel i ∧ s.cancels i = some order ∧ order.voucherId = v ∧
    cancelCommitted order s.redis s.db ≠ none

/-- The step inserts the outbox row of the order. -/
def Inserts (rejects : Reservation → Bool) (r : Reservation) (action : Pipeline.Action)
    (s : Pipeline.State) : Prop :=
  ¬InOutbox s.db r ∧ ∃ t, Pipeline.step rejects s action = some t ∧ InOutbox t.db r

/-- Nothing of the voucher is quarantined, and the step leaves the calls of the voucher that have
their key undisturbed. -/
def Undisturbed (rejects : Reservation → Bool) (v : VoucherId) (s : State) (a : Action) : Prop :=
  (∀ q ∈ s.pipeline.redis.quarantine, q.voucherId ≠ v) ∧
    match a with
    | .advance i => ∀ c, (s.recons i).current = some c → c.voucherId = v → Holds s c →
      c.phase = .locked → s.pipeline.db.stock v = some c.mysqlStock
    | .pipeline action => ∀ i c, (s.recons i).current = some c → c.voucherId = v → Holds s c →
      (Phase.counting c.phase → ¬Cancels v action s.pipeline) ∧
        ∀ r, r.voucherId = v → Phase.pending c.phase r.member →
          ¬Inserts rejects r action s.pipeline
    | _ => True

/-- A stock that changes by neither the fenced steps of the pipeline that commit no cancellation nor
the keys of the reconciliation. -/
structure Target (rejects : Reservation → Bool)
    (target : VoucherId → Pipeline.State → Option ℤ) : Prop where
  step : ∀ {v action s t}, Coherent rejects s → Pipeline.step rejects s action = some t →
    s.redis.recovery v ≠ none → ¬Cancels v action s → target v t = target v s
  frame : ∀ {v} (p : Pipeline.State) (redis : Redis), redis.stock v = p.redis.stock v →
    target v { p with redis := redis } = target v p

section Steps

variable {s t : Pipeline.State} {c : Rebuild} {action : Pipeline.Action}

theorem mem_unchecked {p : Text → Prop} {r : Reservation} :
    r ∈ unchecked v p s ↔ r ∈ s.granted ∧ r.voucherId = v ∧ ¬InOutbox s.db r ∧ p r.member := by
  simp [unchecked]

/-! ## Steps of the pipeline -/

theorem unchecked_step {p : Text → Prop} (hs : Coherent rejects s)
    (hstep : Pipeline.step rejects s action = some t) (hfence : s.redis.recovery v ≠ none)
    (hinsert : ∀ r, r.voucherId = v → p r.member → ¬Inserts rejects r action s) :
    unchecked v p t = unchecked v p s := by
  ext r
  rw [mem_unchecked, mem_unchecked]
  constructor
  · rintro ⟨hr, hv, hout, hp⟩
    exact ⟨(fenced_granted hs hstep hfence hv).mp hr, hv,
      fun h => hout ((step_grows hs hstep).inOutbox h), hp⟩
  · rintro ⟨hr, hv, hout, hp⟩
    exact ⟨(fenced_granted hs hstep hfence hv).mpr hr, hv,
      fun h => hinsert r hv hp ⟨hout, t, hstep, h⟩, hp⟩

theorem Tally.step {stock : Option ℤ} {S : ℤ} {reservedOrderIds : LinkedSet OrderId}
    {handoffOnly : ℕ} {p : Text → Prop} (h : Tally stock v S reservedOrderIds handoffOnly p s)
    (hs : Coherent rejects s) (hstep : Pipeline.step rejects s action = some t)
    (hfence : s.redis.recovery v ≠ none)
    (hinsert : ∀ r, r.voucherId = v → p r.member → ¬Inserts rejects r action s) :
    Tally stock v S reservedOrderIds handoffOnly p t := by
  constructor
  · intro o ho
    obtain ⟨r, hr, hid⟩ := h.reserved o ho
    exact ⟨r, (step_grows hs hstep).inOutbox hr, hid⟩
  · rw [unchecked_step hs hstep hfence hinsert]
    exact h.balance

theorem counted_step (htarget : Target rejects target) (hs : Coherent rejects s)
    (hstep : Pipeline.step rejects s action = some t)
    (hfence : s.redis.recovery c.voucherId ≠ none)
    (hcancel : Phase.counting c.phase → ¬Cancels c.voucherId action s)
    (hinsert : ∀ r, r.voucherId = c.voucherId → Phase.pending c.phase r.member →
      ¬Inserts rejects r action s) (h : Counted target s c) : Counted target t c := by
  have hstock : Phase.counting c.phase → target c.voucherId t = target c.voucherId s :=
    fun hc => htarget.step hs hstep hfence (hcancel hc)
  unfold Counted at h ⊢
  cases hphase : c.phase with
  | locked => trivial
  | failed => trivial
  | unstaged => trivial
  | outboxRead reservedOrderIds purchasedUserIds =>
    rw [hphase] at h hstock hinsert
    rw [hstock trivial]
    exact h.step hs hstep hfence hinsert
  | ordersRead reservedOrderIds purchasedUserIds =>
    rw [hphase] at h hstock hinsert
    rw [hstock trivial]
    exact h.step hs hstep hfence hinsert
  | merging reservedOrderIds purchasedUserIds members handoffOnly =>
    rw [hphase] at h hstock hinsert
    rw [hstock trivial]
    obtain ⟨htally, hnodup, hmembers⟩ := h
    refine ⟨htally.step hs hstep hfence hinsert, hnodup, fun m hm => ?_⟩
    obtain ⟨r, hr, hv, hrm⟩ := hmembers m hm
    exact ⟨r, granted_step hs hstep hr, hv, hrm⟩
  | _ =>
    rw [hphase] at h hstock
    rw [hstock trivial]
    exact h

/-- The keys of the reconciliation, the stock apart, say nothing of what a call has counted. -/
theorem Counted.frame (htarget : Target rejects target) {redis : Redis}
    (stock : redis.stock c.voucherId = s.redis.stock c.voucherId) (h : Counted target s c) :
    Counted target { s with redis := redis } c := by
  unfold Counted at h ⊢
  rw [htarget.frame s redis stock]
  cases hphase : c.phase <;> rw [hphase] at h
  all_goals first
    | exact h
    | exact ⟨h.reserved, h.balance⟩
    | exact ⟨⟨h.1.reserved, h.1.balance⟩, h.2⟩

theorem callInvariant_counted (htarget : Target rejects target) :
    CallInvariant (Counted target) where
  locked p c hphase := by
    unfold Counted
    rw [hphase]
    trivial
  failed p c hphase := by
    unfold Counted
    rw [hphase]
    trivial
  frame p c redis _ hstock _ h := h.frame htarget hstock

/-! ## The reads of a call -/

/-- An order row has an outbox row, so an accepted order with neither is unchecked. -/
theorem hasOrder_of_not_inOutbox (hs : Coherent rejects s) {r : Reservation}
    (hr : r ∈ s.granted) (hout : ¬InOutbox s.db r) : s.db.hasOrder r.orderId = false := by
  rw [Db.not_hasOrder_iff]
  intro row hrow hid
  obtain ⟨r', hr', hid', -⟩ := hs.orders row hrow
  have heq : r' = r := hs.unique (hs.granted_of_inOutbox hr') hr (hid'.trans hid)
  exact hout (heq ▸ hr')

/-- **The outbox read**: what is outstanding is what it collects and what has no outbox row. -/
theorem outstandingIds_read (hs : Coherent rejects s) :
    (outstandingIds v s).card =
      (LinkedSet.empty.addAll ((findUnpersistedEvents v s.db).map fun e => e.orderId)).size +
        (unchecked v (fun _ => True) s).card := by
  have hinj : Set.InjOn Reservation.orderId (unchecked v (fun _ => True) s : Set Reservation) :=
    fun r hr r' hr' hid => hs.unique (mem_unchecked.mp hr).1 (mem_unchecked.mp hr').1 hid
  rw [LinkedSet.size_eq_card, ← Finset.card_image_of_injOn hinj, ← Finset.card_union_of_disjoint]
  · congr 1
    ext o
    rw [hs.mem_outstandingIds, Finset.mem_union, List.mem_toFinset, mem_reservedOrderIds,
      Finset.mem_image]
    constructor
    · rintro ⟨r, hr, hv, rfl, hn⟩
      by_cases hout : InOutbox s.db r
      · obtain ⟨e, he, rfl⟩ := hout
        refine Or.inl ⟨e, he, hv, fun hcompleted => ?_, hn, rfl⟩
        exact absurd ((hs.completed e he hcompleted).symm.trans hn) (by simp)
      · exact Or.inr ⟨r, mem_unchecked.mpr ⟨hr, hv, hout, trivial⟩, rfl⟩
    · rintro (⟨e, he, hv, -, hn, rfl⟩ | ⟨r, hr, rfl⟩)
      · exact ⟨e.reservation, (hs.outbox e he).1, hv, rfl, hn⟩
      · obtain ⟨hr, hv, hout, -⟩ := mem_unchecked.mp hr
        exact ⟨r, hr, hv, rfl, hasOrder_of_not_inOutbox hs hr hout⟩
  · rw [Finset.disjoint_left]
    intro o ho ho'
    obtain ⟨e, he, -, -, -, rfl⟩ := mem_reservedOrderIds.mp (List.mem_toFinset.mp ho)
    obtain ⟨r, hr, hid⟩ := Finset.mem_image.mp ho'
    obtain ⟨hr, -, hout, -⟩ := mem_unchecked.mp hr
    exact hout ⟨e, he, hs.unique (hs.outbox e he).1 hr hid.symm⟩

theorem tally_read {stock : Option ℤ} {S : ℤ} (hs : Coherent rejects s)
    (hstock : stock = some (S - (outstandingIds v s).card)) :
    Tally stock v S
      (LinkedSet.empty.addAll ((findUnpersistedEvents v s.db).map fun e => e.orderId)) 0
      (fun _ => True) s := by
  constructor
  · intro o ho
    obtain ⟨e, he, -, -, -, rfl⟩ := mem_reservedOrderIds.mp ho
    exact ⟨e.reservation, ⟨e, he, rfl⟩, rfl⟩
  · rw [hstock, outstandingIds_read hs]
    push_cast
    exact congrArg some (by omega)

/-- **The handoff read**: an order without an outbox row is in the handoff set. -/
theorem unchecked_handoff (hs : Coherent rejects s)
    (hquarantine : ∀ q ∈ s.redis.quarantine, q.voucherId ≠ v) :
    unchecked v (· ∈ (s.redis.handoff v).members) s = unchecked v (fun _ => True) s := by
  ext r
  rw [mem_unchecked, mem_unchecked]
  refine and_congr_right fun hr => and_congr_right fun hv => and_congr_right fun hout =>
    ⟨fun _ => trivial, fun _ => ?_⟩
  rcases hs.custody r hr with hin | ⟨reason, hq⟩ | hin
  · rwa [InHandoff, hv] at hin
  · exact absurd hv (hquarantine _ hq)
  · exact absurd hin hout

/-- **The lookup of a member** whose order has an outbox row. -/
theorem unchecked_cons_of_inOutbox {members : List Text} {r : Reservation}
    (hv : r.voucherId = v) (hout : InOutbox s.db r) :
    unchecked v (· ∈ r.member :: members) s = unchecked v (· ∈ members) s := by
  ext r'
  rw [mem_unchecked, mem_unchecked]
  refine and_congr_right fun hr' => and_congr_right fun hv' => and_congr_right fun hout' => ?_
  rw [List.mem_cons]
  refine ⟨fun hm => hm.resolve_left fun heq => hout' ?_, Or.inr⟩
  rwa [buildMember_injective (hv'.trans hv.symm) heq]

/-- **The lookup of a member** whose order has none. -/
theorem unchecked_cons_of_not_inOutbox {members : List Text} {r : Reservation}
    (hr : r ∈ s.granted) (hv : r.voucherId = v) (hout : ¬InOutbox s.db r)
    (hm : r.member ∉ members) :
    (unchecked v (· ∈ r.member :: members) s).card = (unchecked v (· ∈ members) s).card + 1 := by
  have hins : unchecked v (· ∈ r.member :: members) s =
      insert r (unchecked v (· ∈ members) s) := by
    ext r'
    rw [Finset.mem_insert, mem_unchecked, mem_unchecked, List.mem_cons]
    constructor
    · rintro ⟨hr', hv', hout', heq | hm'⟩
      · exact Or.inl (buildMember_injective (hv'.trans hv.symm) heq)
      · exact Or.inr ⟨hr', hv', hout', hm'⟩
    · rintro (rfl | ⟨hr', hv', hout', hm'⟩)
      · exact ⟨hr, hv, hout, Or.inl rfl⟩
      · exact ⟨hr', hv', hout', Or.inr hm'⟩
  rw [hins, Finset.card_insert_of_notMem]
  exact fun h => hm (mem_unchecked.mp h).2.2.2

theorem findByOrderId_isNone (hs : Coherent rejects s) {r : Reservation} (hr : r ∈ s.granted) :
    (findByOrderId r.orderId s.db).isNone = true ↔ ¬InOutbox s.db r := by
  rw [Option.isNone_iff_eq_none, findByOrderId, List.find?_eq_none]
  simp only [decide_eq_true_eq]
  constructor
  · rintro h ⟨e, he, rfl⟩
    exact h e he rfl
  · intro h e he hid
    exact h ⟨e, he, hs.unique (hs.outbox e he).1 hr hid⟩

/-- **One member of the handoff set**: it is counted exactly when its order has no outbox row and
is not counted yet. -/
theorem counted_merge (hs : Coherent rejects s) {reservedOrderIds : LinkedSet OrderId}
    {purchasedUserIds : LinkedSet UserId} {member : Text} {members : List Text} {handoffOnly : ℕ}
    {v : VoucherId} {S : ℤ} {token : Text} {phase : Phase}
    (h : Counted target s ⟨v, S, token,
      .merging reservedOrderIds purchasedUserIds (member :: members) handoffOnly⟩)
    (hphase : (Rebuild.advance batchSize ⟨v, S, token,
      .merging reservedOrderIds purchasedUserIds (member :: members) handoffOnly⟩
        s.redis s.db).2 = .next phase) : Counted target s ⟨v, S, token, phase⟩ := by
  obtain ⟨⟨hreserved, hbalance⟩, hdistinct, hmembers⟩ := h
  obtain ⟨hmember, hnodup⟩ := List.nodup_cons.mp hdistinct
  obtain ⟨r, hr, rfl, rfl⟩ := hmembers member List.mem_cons_self
  have hrest : ∀ m ∈ members, ∃ r' ∈ s.granted, r'.voucherId = r.voucherId ∧ r'.member = m :=
    fun m hm => hmembers m (List.mem_cons_of_mem _ hm)
  -- an order with an outbox row is not among the unchecked ones
  have hskip : InOutbox s.db r → ∀ users, Counted target s ⟨r.voucherId, S, token,
      .merging reservedOrderIds users members handoffOnly⟩ := by
    intro hout users
    rw [unchecked_cons_of_inOutbox rfl hout] at hbalance
    exact ⟨⟨hreserved, hbalance⟩, hnodup, hrest⟩
  simp only [Rebuild.advance, parseMember_member] at hphase
  split at hphase
  · rename_i hin
    cases hphase
    obtain ⟨r', hr', hid⟩ := hreserved r.orderId hin
    have heq : r' = r := hs.unique (hs.granted_of_inOutbox hr') hr hid
    exact hskip (heq ▸ hr') _
  split at hphase
  · rename_i hnone
    cases hphase
    have hout := (findByOrderId_isNone hs hr).mp hnone
    rw [unchecked_cons_of_not_inOutbox hr rfl hout hmember] at hbalance
    refine ⟨⟨hreserved, hbalance.trans (congrArg some ?_)⟩, hnodup, hrest⟩
    push_cast
    omega
  · rename_i hsome
    cases hphase
    refine hskip ?_ _
    by_contra hout
    exact hsome ((findByOrderId_isNone hs hr).mpr hout)

/-- **The commands of a call** carry what it has counted on, where the stock to find at its outbox
read is the MySQL stock less the outstanding orders. -/
theorem counted_advance (htarget : Target rejects target) (hs : Coherent rejects s)
    (hquarantine : ∀ q ∈ s.redis.quarantine, q.voucherId ≠ c.voucherId)
    (hlocked : c.phase = .locked →
      target c.voucherId s = some (c.mysqlStock - (outstandingIds c.voucherId s).card))
    {phase : Phase} (hphase : (c.advance batchSize s.redis s.db).2 = .next phase)
    (h : Counted target s c) :
    Counted target { s with redis := (c.advance batchSize s.redis s.db).1 }
      { c with phase := phase } := by
  suffices hnext : Counted target s { c with phase := phase } by
    refine hnext.frame htarget ?_
    rw [Rebuild.stock_of_next hphase]
  obtain ⟨v, S, token, here⟩ := c
  cases here with
  | locked =>
    cases hphase
    exact tally_read hs (hlocked rfl)
  | outboxRead reservedOrderIds purchasedUserIds =>
    cases hphase
    exact h
  | ordersRead reservedOrderIds purchasedUserIds =>
    cases hphase
    obtain ⟨hreserved, hbalance⟩ := h
    refine ⟨⟨hreserved, ?_⟩, (s.redis.handoff v).members_nodup, fun m hm => hs.handoff v m hm⟩
    rw [unchecked_handoff hs hquarantine]
    exact hbalance
  | merging reservedOrderIds purchasedUserIds members handoffOnly =>
    cases members with
    | cons member members => exact counted_merge hs h hphase
    | nil =>
      rcases renewed_or_failed hphase with rfl | rfl
      · have hempty : unchecked v (· ∈ ([] : List Text)) s = ∅ := by
          rw [Finset.eq_empty_iff_forall_notMem]
          exact fun r hr => absurd (mem_unchecked.mp hr).2.2.2 (by simp)
        have hbalance := h.1.balance
        rw [hempty] at hbalance
        change (target v s).map (max 0) = _
        rw [hbalance]
        simp
      · trivial
  | renewed purchasedUserIds expectedStock =>
    cases hphase
    exact h
  | cleared purchasedUserIds expectedStock =>
    cases hphase
    exact h
  | sentinelAdded userIds expectedStock =>
    cases hphase
    exact h
  | writing userIds expectedStock =>
    cases userIds with
    | cons user userIds =>
      cases hphase
      exact h
    | nil =>
      simp only [Rebuild.advance] at hphase
      split at hphase <;> cases hphase
      trivial
  | written userIds expectedStock =>
    rcases renewed_or_failed hphase with rfl | rfl
    · exact h
    · trivial
  | failed =>
    cases hphase
    trivial
  | unstaged => cases hphase

end Steps

/-- **The calls that have their key have counted right**, after every step that leaves them
undisturbed. -/
theorem held_counted {s t : State} {a : Action} (htarget : Target rejects target)
    (ha : Undisturbed rejects v s a) (hs : Consistent rejects s)
    (hread : ∀ S, s.pipeline.db.stock v = some S →
      target v s.pipeline = some (S - (outstandingIds v s.pipeline).card))
    (h : Held (Counted target) v s) (hstep : step rejects batchSize s a = some t) :
    Held (Counted target) v t := by
  refine held_step (callInvariant_counted htarget) hs h ?_ ?_ ?_ hstep
  · rintro action p rfl hp i c hc rfl hheld hcounted
    obtain ⟨hcancel, hinsert⟩ := ha.2 i c hc rfl hheld
    exact counted_step htarget hs.coherent hp (by rw [hheld]; simp) hcancel hinsert hcounted
  · rintro i c phase rfl hc rfl hheld hphase hcounted
    exact counted_advance htarget hs.coherent ha.1
      (fun hlocked => hread _ (ha.2 c hc rfl hheld hlocked)) hphase hcounted
  · rintro i c - - - - hcounted
    exact hcounted.frame htarget rfl

end Hmdp.Reconcile
