import Hmdp.Pipeline.Purchase
import Hmdp.Reconcile.Held

/-!
# The buyers a reconciliation keeps

A call collects users from the outbox, then from the orders, then from the handoff set, while an
order goes the other way round: handoff set, outbox, orders. No order of the voucher is accepted
while the call has its key, so each order there is must be met by one of the reads. What is left
to meet shrinks with the phases (`seen`): up to the handoff read an order whose user is not
collected is still in the handoff set, later its member is still to be merged, and then there is
none. An order may only be missed if nobody asks for its buyer any more (`Past`): it has left the
handoff set, and MySQL refuses its row or its row is cancelled.

An order is lost when it leaves the handoff set between the outbox read and the handoff read, or
with the staging set when that runs out after the first batch of users. `KeepsBuyers` says which of
them matter: at the order read, an order with an outbox row and no order row whose user is not
collected; between the order read and the handoff read, any order whose user is not collected; and
while the users are written, any expiry of the staging set that has users in it.

* **`no_buyer_forgotten`**: in a run without these, every buyer is in the set a rebuild publishes,
  and `seckill.lua` refuses them.
* **`buyer_forgotten`**: in general not. A relay hands an order over between the two reads.
* **`buyers_run_out`**: nor with nobody else around. The staging set gets its expiry time once, and
  a batch that is written after it starts a new set.
-/

namespace Hmdp.Reconcile

open Hmdp.Lib Hmdp.Model Hmdp.Pipeline

variable {rejects : Reservation → Bool} {batchSize : ℕ} {v : VoucherId} {user : UserId}

/-! ## Buyers -/

/-- The user has a live order row, a handoff member or an unpersisted outbox row of the voucher. -/
def Buyer (user : UserId) (v : VoucherId) (s : Pipeline.State) : Prop :=
  (∃ row ∈ s.db.orders.rows, row.userId = user ∧ row.voucherId = v ∧ row.status ≠ .cancelled) ∨
    (∃ r ∈ handoffReservations v s.redis, r.userId = user) ∨
      ∃ e ∈ findUnpersistedEvents v s.db, e.userId = user

/-- The order has left the handoff set, and MySQL refuses its row or its row is cancelled. -/
def Past (rejects : Reservation → Bool) (s : Pipeline.State) (r : Reservation) : Prop :=
  ¬InHandoff s.redis r ∧ (rejects r = true ∨
    ∃ row ∈ s.db.orders.rows, row.id = r.orderId ∧ row.status = .cancelled)

/-- The call has collected the user of the order, or will meet its member. -/
def seen (s : Pipeline.State) (c : Rebuild) (r : Reservation) : Prop :=
  match c.phase with
  | .ordersRead _ purchasedUserIds =>
    r.userId ∈ purchasedUserIds.elements ∨ InHandoff s.redis r
  | .merging _ purchasedUserIds members _ =>
    r.userId ∈ purchasedUserIds.elements ∨ r.member ∈ members
  | .renewed purchasedUserIds _ => r.userId ∈ purchasedUserIds.elements
  | .cleared purchasedUserIds _ => r.userId ∈ purchasedUserIds.elements
  | .sentinelAdded userIds _ => r.userId ∈ userIds
  | .writing userIds _ => r.userId ∈ userIds ∨ r.userId ∈ s.redis.staged c.voucherId c.token
  | .written userIds _ => r.userId ∈ userIds ∨ r.userId ∈ s.redis.staged c.voucherId c.token
  | .locked | .outboxRead _ _ | .failed | .unstaged => True

/-- **Every accepted order is seen, or past.** -/
def Remembers (rejects : Reservation → Bool) (s : Pipeline.State) (c : Rebuild) : Prop :=
  ∀ r ∈ s.granted, r.voucherId = c.voucherId → seen s c r ∨ Past rejects s r

/-! ## The steps that lose no buyer -/

/-- The step takes an order out of the handoff set that has its outbox row and is not cancelled. -/
def HandsOff (rejects : Reservation → Bool) (r : Reservation) (action : Pipeline.Action)
    (s : Pipeline.State) : Prop :=
  InHandoff s.redis r ∧ InOutbox s.db r ∧
    (∀ row ∈ s.db.orders.rows, row.id = r.orderId → row.status ≠ .cancelled) ∧
      ∃ t, Pipeline.step rejects s action = some t ∧ ¬InHandoff t.redis r

/-- The call writes users to its staging set. -/
def Phase.isWriting : Phase → Bool
  | .writing _ _ => true
  | .written _ _ => true
  | _ => false

/-- The order read meets the unpersisted orders that the outbox read did not, or they are still in
the handoff set; none leaves it uncollected before the handoff read; and the staging set does not
run out with users in it. -/
def KeepsBuyers (rejects : Reservation → Bool) (v : VoucherId) (s : State) : Action → Prop
  | .advance i => ∀ c, (s.recons i).current = some c → c.voucherId = v → Holds s c →
    ∀ reservedOrderIds purchasedUserIds, c.phase = .outboxRead reservedOrderIds purchasedUserIds →
      ∀ e ∈ s.pipeline.db.outbox.rows, e.voucherId = v →
        s.pipeline.db.hasOrder e.orderId = false → e.userId ∈ purchasedUserIds.elements ∨
          e.userId ∈ findActiveUserIds v s.pipeline.db ∨ InHandoff s.pipeline.redis e.reservation
  | .pipeline action => ∀ i c, (s.recons i).current = some c → c.voucherId = v → Holds s c →
    ∀ reservedOrderIds purchasedUserIds, c.phase = .ordersRead reservedOrderIds purchasedUserIds →
      ∀ r, r.voucherId = v → r.userId ∉ purchasedUserIds.elements →
        ¬HandsOff rejects r action s.pipeline
  | .expireStaging w token => ∀ i c, (s.recons i).current = some c → c.voucherId = v → Holds s c →
    c.voucherId = w → c.token = token → Phase.isWriting c.phase = true →
      s.pipeline.redis.staged w token = ∅
  | _ => True

section Steps

variable {s t : Pipeline.State} {c : Rebuild} {r : Reservation}

/-- **Nobody asks for the buyer of an order that is past.** -/
theorem buyer_not_past (hs : Coherent rejects s) (h : Buyer user v s) :
    ∃ r ∈ s.granted, r.voucherId = v ∧ r.userId = user ∧ ¬Past rejects s r := by
  rcases h with ⟨row, hrow, hu, hv, hlive⟩ | ⟨r, hr, hu⟩ | ⟨e, he, hu⟩
  · obtain ⟨r, hr, hid, hru, hrv⟩ := hs.orders row hrow
    refine ⟨r, hs.granted_of_inOutbox hr, hrv.trans hv, hru.trans hu, ?_⟩
    rintro ⟨-, hrej | ⟨row', hrow', hid', hcancelled⟩⟩
    · obtain ⟨e, he, rfl⟩ := hr
      rw [(hs.outbox e he).2.2] at hrej
      exact absurd hrej (by simp)
    · rw [s.db.order_unique hrow' hrow (hid'.trans hid)] at hcancelled
      exact hlive hcancelled
  · obtain ⟨hr, hv, hin⟩ := hs.mem_handoffReservations.mp hr
    exact ⟨r, hr, hv, hu, fun hp => hp.1 hin⟩
  · simp only [findUnpersistedEvents, List.mem_filter, Bool.and_eq_true, decide_eq_true_eq,
      Bool.not_eq_true'] at he
    obtain ⟨he, ⟨hv, -⟩, hn⟩ := he
    obtain ⟨hr, -, hrej⟩ := hs.outbox e he
    refine ⟨e.reservation, hr, hv, hu, ?_⟩
    rintro ⟨-, hrej' | ⟨row, hrow, hid, -⟩⟩
    · rw [hrej] at hrej'
      exact absurd hrej' (by simp)
    · exact Db.not_hasOrder_iff.mp hn row hrow hid

/-! ## Steps of the pipeline -/

theorem past_step {action : Pipeline.Action} (hs : Coherent rejects s)
    (hstep : Pipeline.step rejects s action = some t)
    (hfence : s.redis.recovery r.voucherId ≠ none) (h : Past rejects s r) : Past rejects t r := by
  refine ⟨fun hin => h.1 (fenced_handoff hs hstep hfence hin), h.2.imp_right ?_⟩
  rintro ⟨row, hrow, hid, hcancelled⟩
  exact ⟨row, cancelled_step hs hstep hcancelled hrow, hid, hcancelled⟩

/-- An order leaves the handoff set with its outbox row, or for good. -/
theorem inHandoff_step {action : Pipeline.Action} (hs : Coherent rejects s)
    (hstep : Pipeline.step rejects s action = some t) (hin : InHandoff s.redis r)
    (hkeep : ¬HandsOff rejects r action s) : InHandoff t.redis r ∨ Past rejects t r := by
  by_cases hin' : InHandoff t.redis r
  · exact Or.inl hin'
  rcases hs.handsOver hstep r.voucherId r.member hin hin' with
    ⟨r', hv, hm, hout⟩ | ⟨reason, hquarantine⟩
  · rw [buildMember_injective hv hm] at hout
    refine Or.inr ⟨hin', Or.inr ?_⟩
    by_contra hlive
    refine hkeep ⟨hin, hout, fun row hrow hid hcancelled => hlive ?_, t, hstep, hin'⟩
    exact ⟨row, cancelled_step hs hstep hcancelled hrow, hid, hcancelled⟩
  · refine Or.inr ⟨hin', Or.inl ?_⟩
    have hq : InQuarantine t.redis r := ⟨reason, by
      rw [hquarantine]
      exact Finset.mem_insert_self _ _⟩
    exact ((coherent_step hs hstep).rejects_of_inQuarantine hq).2

theorem remembers_step {action : Pipeline.Action} (hs : Coherent rejects s)
    (hstep : Pipeline.step rejects s action = some t)
    (hfence : s.redis.recovery c.voucherId ≠ none)
    (hkeep : ∀ reservedOrderIds purchasedUserIds,
      c.phase = .ordersRead reservedOrderIds purchasedUserIds → ∀ r, r.voucherId = c.voucherId →
        r.userId ∉ purchasedUserIds.elements → ¬HandsOff rejects r action s)
    (h : Remembers rejects s c) : Remembers rejects t c := by
  intro r hr hv
  have hr := (fenced_granted hs hstep hfence hv).mp hr
  rcases h r hr hv with hseen | hpast
  swap
  · exact Or.inr (past_step hs hstep (hv ▸ hfence) hpast)
  have hstaged : t.redis.staged c.voucherId c.token = s.redis.staged c.voucherId c.token := by
    rw [Redis.staged, Redis.staged, (step_recovery hs hstep).2]
  unfold seen at hseen ⊢
  cases hphase : c.phase with
  | ordersRead reservedOrderIds purchasedUserIds =>
    rw [hphase] at hseen
    by_cases hu : r.userId ∈ purchasedUserIds.elements
    · exact Or.inl (Or.inl hu)
    · have hin := hseen.resolve_left hu
      exact (inHandoff_step hs hstep hin (hkeep _ _ hphase r hv hu)).imp_left Or.inr
  | writing userIds expectedStock =>
    rw [hphase] at hseen
    rw [hstaged]
    exact Or.inl hseen
  | written userIds expectedStock =>
    rw [hphase] at hseen
    rw [hstaged]
    exact Or.inl hseen
  | _ =>
    rw [hphase] at hseen
    exact Or.inl hseen

/-- Another call's writes do not show. -/
theorem seen_frame {redis : Redis} (handoff : redis.handoff = s.redis.handoff)
    (staged : redis.staged c.voucherId c.token = s.redis.staged c.voucherId c.token) :
    seen { s with redis := redis } c r ↔ seen s c r := by
  unfold seen InHandoff
  simp only [handoff, staged]

theorem past_frame {redis : Redis} (handoff : redis.handoff = s.redis.handoff) :
    Past rejects { s with redis := redis } r ↔ Past rejects s r := by
  simp only [Past, InHandoff, handoff]

theorem callInvariant_remembers : CallInvariant (Remembers rejects) where
  locked p c hphase r _ _ := by
    left
    unfold seen
    rw [hphase]
    trivial
  failed p c hphase r _ _ := by
    left
    unfold seen
    rw [hphase]
    trivial
  frame p c redis handoff _ staged h r hr hv :=
    (h r hr hv).imp (seen_frame handoff staged).mpr (past_frame handoff).mpr

/-! ## The reads of a call -/

/-- **The order read** collects the user of every order that is not past, not in the handoff set
and not unpersisted. -/
theorem seen_ordersRead (hs : Coherent rejects s) (hr : r ∈ s.granted)
    {purchasedUserIds : LinkedSet UserId}
    (hkeep : ∀ e ∈ s.db.outbox.rows, e.voucherId = r.voucherId → s.db.hasOrder e.orderId = false →
      e.userId ∈ purchasedUserIds.elements ∨ e.userId ∈ findActiveUserIds r.voucherId s.db ∨
        InHandoff s.redis e.reservation) :
    (r.userId ∈ (purchasedUserIds.addAll (findActiveUserIds r.voucherId s.db)).elements ∨
      InHandoff s.redis r) ∨ Past rejects s r := by
  rw [LinkedSet.mem_addAll]
  by_cases hin : InHandoff s.redis r
  · exact Or.inl (Or.inr hin)
  rcases hs.custody r hr with hc | hc | ⟨e, he, rfl⟩
  · exact absurd hc hin
  · exact Or.inr ⟨hin, Or.inl (hs.rejects_of_inQuarantine hc).2⟩
  by_cases hn : s.db.hasOrder e.orderId = true
  · obtain ⟨row, hrow, hid⟩ := Db.hasOrder_iff.mp hn
    by_cases hlive : row.status = .cancelled
    · exact Or.inr ⟨hin, Or.inr ⟨row, hrow, hid, hlive⟩⟩
    · obtain ⟨r', hr', hid', hu', hv'⟩ := hs.orders row hrow
      have heq : r' = e.reservation := hs.unique (hs.granted_of_inOutbox hr') hr (hid'.trans hid)
      subst heq
      refine Or.inl (Or.inl (Or.inl ?_))
      exact mem_findActiveUserIds.mpr ⟨row, hrow, hv'.symm, hlive, hu'.symm⟩
  · rcases hkeep e he rfl (by simpa using hn) with hu | hu | hh
    · exact Or.inl (Or.inl (Or.inr hu))
    · exact Or.inl (Or.inl (Or.inl hu))
    · exact absurd hh hin

/-- **One member of the handoff set**: the user of its order is collected. -/
theorem remembers_merge {reservedOrderIds : LinkedSet OrderId}
    {purchasedUserIds : LinkedSet UserId} {member : Text} {members : List Text} {handoffOnly : ℕ}
    {S : ℤ} {token : Text} {phase : Phase}
    (h : Remembers rejects s ⟨v, S, token,
      .merging reservedOrderIds purchasedUserIds (member :: members) handoffOnly⟩)
    (hphase : (Rebuild.advance batchSize ⟨v, S, token,
      .merging reservedOrderIds purchasedUserIds (member :: members) handoffOnly⟩
        s.redis s.db).2 = .next phase) : Remembers rejects s ⟨v, S, token, phase⟩ := by
  -- where the call goes on, with the users it has collected
  have hnext : ∃ users n, phase = .merging reservedOrderIds users members n ∧
      (∀ u ∈ purchasedUserIds.elements, u ∈ users.elements) ∧
        ∀ event, parseMember v member = some event → event.userId ∈ users.elements := by
    simp only [Rebuild.advance] at hphase
    split at hphase
    · rename_i hnone
      cases hphase
      refine ⟨_, _, rfl, fun u hu => hu, fun event he => ?_⟩
      rw [hnone] at he
      exact absurd he (by simp)
    · rename_i event hsome
      have hcollected : ∀ event', parseMember v member = some event' →
          event'.userId ∈ (purchasedUserIds.add event.userId).elements := by
        intro event' he
        rw [hsome, Option.some.injEq] at he
        rw [← he]
        exact LinkedSet.mem_add.mpr (Or.inl rfl)
      have hold : ∀ u ∈ purchasedUserIds.elements,
          u ∈ (purchasedUserIds.add event.userId).elements :=
        fun u hu => LinkedSet.mem_add.mpr (Or.inr hu)
      split at hphase
      · cases hphase
        exact ⟨_, _, rfl, hold, hcollected⟩
      split at hphase <;> cases hphase <;> exact ⟨_, _, rfl, hold, hcollected⟩
  obtain ⟨users, n, rfl, hold, hcollected⟩ := hnext
  intro r hr hv
  refine (h r hr hv).imp_left ?_
  rintro (hu | hm)
  · exact Or.inl (hold _ hu)
  rcases List.mem_cons.mp hm with heq | hm
  · refine Or.inl (hcollected r ?_)
    rw [← heq, ← show r.voucherId = v from hv]
    exact parseMember_member r
  · exact Or.inr hm

/-- **The commands of a call** lose no order. -/
theorem remembers_advance (hs : Coherent rejects s)
    (hkeep : ∀ reservedOrderIds purchasedUserIds,
      c.phase = .outboxRead reservedOrderIds purchasedUserIds →
        ∀ e ∈ s.db.outbox.rows, e.voucherId = c.voucherId → s.db.hasOrder e.orderId = false →
          e.userId ∈ purchasedUserIds.elements ∨ e.userId ∈ findActiveUserIds c.voucherId s.db ∨
            InHandoff s.redis e.reservation) {phase : Phase}
    (hphase : (c.advance batchSize s.redis s.db).2 = .next phase) (h : Remembers rejects s c) :
    Remembers rejects { s with redis := (c.advance batchSize s.redis s.db).1 }
      { c with phase := phase } := by
  obtain ⟨v, S, token, here⟩ := c
  cases here with
  | locked =>
    cases hphase
    exact fun r _ _ => Or.inl trivial
  | outboxRead reservedOrderIds purchasedUserIds =>
    cases hphase
    rintro r hr rfl
    exact seen_ordersRead hs hr (hkeep _ _ rfl)
  | ordersRead reservedOrderIds purchasedUserIds =>
    cases hphase
    rintro r hr rfl
    exact h r hr rfl
  | merging reservedOrderIds purchasedUserIds members handoffOnly =>
    cases members with
    | cons member members =>
      rw [Rebuild.advance_merge]
      exact remembers_merge h hphase
    | nil =>
      rcases renewed_or_failed hphase with rfl | rfl
      · exact fun r hr hv => (h r hr hv).imp_left fun hseen => hseen.resolve_right (by simp)
      · exact fun r _ _ => Or.inl trivial
  | renewed purchasedUserIds expectedStock =>
    cases hphase
    exact fun r hr hv => h r hr hv
  | cleared purchasedUserIds expectedStock =>
    cases hphase
    exact fun r hr hv => h r hr hv
  | sentinelAdded userIds expectedStock =>
    cases hphase
    exact fun r hr hv => (h r hr hv).imp_left Or.inl
  | writing userIds expectedStock =>
    cases userIds with
    | cons user userIds =>
      cases hphase
      intro r hr hv
      refine (h r hr hv).imp_left ?_
      show _ → r.userId ∈ (user :: userIds).drop batchSize ∨ r.userId ∈
        (s.redis.addStaged v token ((user :: userIds).take batchSize)).staged v token
      rw [Redis.staged_addStaged, Finset.mem_union, List.mem_toFinset]
      rintro (hu | hu)
      · rw [← List.take_append_drop batchSize (user :: userIds)] at hu
        rcases List.mem_append.mp hu with hu | hu
        · exact Or.inr (Or.inr hu)
        · exact Or.inl hu
      · exact Or.inr (Or.inl hu)
    | nil =>
      simp only [Rebuild.advance] at hphase
      split at hphase <;> cases hphase
      exact fun r _ _ => Or.inl trivial
  | written userIds expectedStock =>
    rcases renewed_or_failed hphase with rfl | rfl
    · exact fun r hr hv => h r hr hv
    · exact fun r _ _ => Or.inl trivial
  | failed =>
    cases hphase
    exact fun r _ _ => Or.inl trivial
  | unstaged => cases hphase

/-- **A staging set without users** may run out. -/
theorem remembers_expire
    (hempty : Phase.isWriting c.phase = true → s.redis.staged c.voucherId c.token = ∅)
    (h : Remembers rejects s c) :
    Remembers rejects { s with redis := s.redis.setStaging c.voucherId c.token none } c := by
  intro r hr hv
  refine (h r hr hv).imp_left fun hseen => ?_
  unfold seen at hseen ⊢
  cases hphase : c.phase with
  | writing userIds expectedStock =>
    rw [hphase] at hseen hempty
    rw [hempty rfl] at hseen
    exact Or.inl (hseen.resolve_right (by simp))
  | written userIds expectedStock =>
    rw [hphase] at hseen hempty
    rw [hempty rfl] at hseen
    exact Or.inl (hseen.resolve_right (by simp))
  | _ =>
    rw [hphase] at hseen
    exact hseen

end Steps

/-! ## Runs -/

variable {s t u : State}

/-- **A step that loses no buyer** keeps every order seen or past. -/
theorem remembers_keep {a : Action} (ha : KeepsBuyers rejects v s a)
    (h : Consistent rejects s ∧ Held (Remembers rejects) v s)
    (hstep : step rejects batchSize s a = some t) :
    Consistent rejects t ∧ Held (Remembers rejects) v t := by
  refine ⟨consistent_step h.1 hstep, held_step callInvariant_remembers h.1 h.2 ?_ ?_ ?_ hstep⟩
  · rintro action p rfl hp i c hc rfl hheld hremembers
    exact remembers_step h.1.coherent hp (by rw [hheld]; simp) (ha i c hc rfl hheld) hremembers
  · rintro i c phase rfl hc rfl hheld hphase hremembers
    exact remembers_advance h.1.coherent (ha c hc rfl hheld) hphase hremembers
  · rintro i c rfl hc rfl hheld hremembers
    exact remembers_expire (ha i c hc rfl hheld rfl rfl) hremembers

/-- What a rebuild script that returns 1 publishes. -/
theorem rebuilt_eq {i : ℕ} (hrebuilds : rebuilds v i t = true)
    (hstep : step rejects batchSize t (.advance i) = some u) :
    ∃ c, (t.recons i).current = some c ∧ c.voucherId = v ∧ Holds t c ∧
      (∃ expectedStock, c.phase = .writing [] expectedStock) ∧
        u.pipeline.db = t.pipeline.db ∧ u.pipeline.redis.handoff = t.pipeline.redis.handoff ∧
          u.pipeline.redis.purchased v = t.pipeline.redis.staged v c.token := by
  obtain ⟨n, token, expectedStock, hc, hheld⟩ := rebuilds_eq_true hrebuilds
  refine ⟨_, hc, rfl, hheld, ⟨expectedStock, rfl⟩, ?_⟩
  simp only [step, hc, Option.some.injEq] at hstep
  subst hstep
  rcases rebuildLua_cases v token expectedStock t.pipeline.redis with ⟨hne, -⟩ | ⟨-, heq⟩
  · exact absurd hheld hne
  · simp only [State.withRecon, State.withRedis, State.withExpiry, Rebuild.advance, heq]
    exact ⟨trivial, trivial, Function.update_self _ _ _⟩

/-- **Reconciliation forgets no buyer.** In a run whose steps lose no buyer of the voucher, right
after a rebuild script that returned 1 every buyer is in the purchased set, and `seckill.lua`
accepts no second order of them. -/
theorem no_buyer_forgotten (rejects : Reservation → Bool) (batchSize : ℕ) (v : VoucherId)
    {s t u : State} {as : List Action} {i : ℕ} (hstart : Start rejects s)
    (hkeeps : Along (step rejects batchSize) (KeepsBuyers rejects v) s as)
    (hrun : run (step rejects batchSize) s as = some t) (hrebuilds : rebuilds v i t = true)
    (hstep : step rejects batchSize t (.advance i) = some u) (user : UserId)
    (hbuyer : Buyer user v u.pipeline) :
    user ∈ u.pipeline.redis.purchased v ∧ ∀ call : SeckillCall, call.voucherId = v →
      call.userId = user → (seckillLua call u.pipeline.redis).1 ≠ 0 := by
  obtain ⟨ht, hheld⟩ := run_invariant (fun _ _ _ ha h hstep => remembers_keep ha h hstep) hkeeps
    ⟨hstart.consistent, hstart.held⟩ hrun
  obtain ⟨c, hc, hv, hholds, ⟨expectedStock, hphase⟩, hdb, hhandoff, hpurchased⟩ :=
    rebuilt_eq hrebuilds hstep
  have hbuyer : Buyer user v t.pipeline := by
    rw [Buyer, hdb] at hbuyer
    simpa only [Buyer, handoffReservations, hhandoff] using hbuyer
  obtain ⟨r, hr, hrv, hru, hpast⟩ := buyer_not_past ht.coherent hbuyer
  have hseen := (hheld i c hc hv hholds r hr (hrv.trans hv.symm)).resolve_right hpast
  have hmem : user ∈ u.pipeline.redis.purchased v := by
    unfold seen at hseen
    rw [hphase, hv, hru] at hseen
    rw [hpurchased]
    exact hseen.resolve_left (by simp)
  refine ⟨hmem, fun call hcv hcu hreply => ?_⟩
  rcases seckillLua_cases call u.pipeline.redis with ⟨hne, -⟩ | ⟨-, n, -, -, hnot, -⟩
  · exact hne hreply
  · rw [hcv, hcu] at hnot
    exact hnot hmem

/-- Every unpersisted order of the voucher is collected when the orders are read. -/
def collected (s : State) (c : Rebuild) : Bool :=
  match c.phase with
  | .outboxRead _ purchasedUserIds =>
    decide (∀ e ∈ s.pipeline.db.outbox.rows, e.voucherId = c.voucherId →
      s.pipeline.db.hasOrder e.orderId = false → e.userId ∈ purchasedUserIds.elements)
  | _ => true

theorem keepsBuyers_of_solo {a : Action} (hs : OthersIdle s) (ha : solo collected s a = true) :
    KeepsBuyers rejects v s a := by
  cases a with
  | pipeline action =>
    intro i c hc
    by_cases hi : i = 0
    · subst hi
      rw [Option.isNone_iff_eq_none.mp ha] at hc
      exact absurd hc (by simp)
    · rw [hs i hi] at hc
      exact absurd hc (by simp)
  | advance i =>
    rintro c hc rfl - reservedOrderIds purchasedUserIds hphase e he hv hn
    simp only [solo, Bool.and_eq_true, decide_eq_true_eq] at ha
    obtain ⟨rfl, hcheck⟩ := ha
    simp only [hc, Option.all_some, collected, hphase, decide_eq_true_eq] at hcheck
    exact Or.inl (hcheck e he hv hn)
  | list i voucherIds => trivial
  | lock i token => trivial
  | fail i => trivial
  | stop i => trivial
  | expire w => trivial
  | expireStaging w token => exact absurd ha (by simp [solo])
  | expireOrder w => trivial

theorem keepsBuyers_at_once : Along (step (fun _ => false) 500)
    (KeepsBuyers (fun _ => false) 7) (calm sold) rebuildAtOnce :=
  along_mono (P := fun s a => solo collected s a = true) (fun _ _ => keepsBuyers_of_solo)
    (fun _ _ _ ha hs hstep => othersIdle_step ha hs hstep) (fun _ _ => rfl) (by decide +kernel)

theorem no_buyer_forgotten_at_once :
    ∃ t u, run (step (fun _ => false) 500) (calm sold) rebuildAtOnce = some t ∧
      rebuilds 7 0 t = true ∧ step (fun _ => false) 500 t (.advance 0) = some u ∧
        5 ∈ u.pipeline.redis.purchased 7 ∧ ∀ call : SeckillCall, call.voucherId = 7 →
          call.userId = 5 → (seckillLua call u.pipeline.redis).1 ≠ 0 := by
  have hres : (run (step (fun _ => false) 500) (calm sold) rebuildAtOnce).any (fun t =>
      rebuilds 7 0 t && (step (fun _ => false) 500 t (.advance 0)).any fun u : State =>
        decide (∃ e ∈ findUnpersistedEvents 7 u.pipeline.db, e.userId = 5)) = true := by
    decide +kernel
  obtain ⟨t, ht, hp⟩ := (Option.any_eq_true _ _).mp hres
  obtain ⟨hrebuilds, hafter⟩ := (Bool.and_eq_true _ _).mp hp
  obtain ⟨u, hu, hbuyer⟩ := (Option.any_eq_true _ _).mp hafter
  exact ⟨t, u, ht, hrebuilds, hu, no_buyer_forgotten (fun _ => false) 500 7 (start_calm run_sold)
    keepsBuyers_at_once ht hrebuilds hu 5 (Or.inr (Or.inr (of_decide_eq_true hbuyer)))⟩

/-- A relay hands the order of user 6 over between the order read and the handoff read. -/
def rebuildWhileRelaying : List Action :=
  [.list 0 [7], .lock 0 ['t'], .advance 0, .advance 0] ++ relayOne.map .pipeline ++
    List.replicate 7 (.advance 0)

/-- **The law fails**: the order of user 6 is in the handoff set when the outbox and the orders are
read, and in the outbox when the handoff set is. -/
theorem buyer_forgotten :
    ¬∀ (rejects : Reservation → Bool) (batchSize : ℕ) (v : VoucherId) (s t u : State)
      (as : List Action) (i : ℕ), Start rejects s → run (step rejects batchSize) s as = some t →
      rebuilds v i t = true → step rejects batchSize t (.advance i) = some u →
      ∀ user, Buyer user v u.pipeline → user ∈ u.pipeline.redis.purchased v := by
  intro h
  have hres : (run (step (fun _ => false) 500) (calm sold) rebuildWhileRelaying).any (fun t =>
      rebuilds 7 0 t && (step (fun _ => false) 500 t (.advance 0)).any fun u : State =>
        decide ((∃ e ∈ findUnpersistedEvents 7 u.pipeline.db, e.userId = 6) ∧
          6 ∉ u.pipeline.redis.purchased 7)) = true := by
    decide +kernel
  obtain ⟨t, ht, hp⟩ := (Option.any_eq_true _ _).mp hres
  obtain ⟨hrebuilds, hafter⟩ := (Bool.and_eq_true _ _).mp hp
  obtain ⟨u, hu, hp⟩ := (Option.any_eq_true _ _).mp hafter
  obtain ⟨hbuyer, hnot⟩ := of_decide_eq_true hp
  exact hnot (h _ _ 7 _ t u _ 0 (start_calm run_sold) ht hrebuilds hu 6 (Or.inr (Or.inr hbuyer)))

/-- Nobody else is around, the users are written one by one, and the staging set runs out after the
first of them. -/
def rebuildTooSlowly : List Action :=
  [.list 0 [7], .lock 0 ['t']] ++ List.replicate 9 (.advance 0) ++
    .expireStaging 7 ['t'] :: List.replicate 3 (.advance 0)

/-- **The staging set runs out**: the next user starts a new one, and user 5, whose order is in the
outbox, may buy again. -/
theorem buyers_run_out :
    ∃ t u, run (step (fun _ => false) 1) (calm sold) rebuildTooSlowly = some t ∧
      rebuilds 7 0 t = true ∧ step (fun _ => false) 1 t (.advance 0) = some u ∧
        Buyer 5 7 u.pipeline ∧ 5 ∉ u.pipeline.redis.purchased 7 ∧
          (seckillLua ⟨7, 5, 9, 50, [], false⟩ u.pipeline.redis).1 = 0 := by
  have hres : (run (step (fun _ => false) 1) (calm sold) rebuildTooSlowly).any (fun t =>
      rebuilds 7 0 t && (step (fun _ => false) 1 t (.advance 0)).any fun u : State =>
        decide ((∃ e ∈ findUnpersistedEvents 7 u.pipeline.db, e.userId = 5) ∧
          5 ∉ u.pipeline.redis.purchased 7 ∧
            (seckillLua ⟨7, 5, 9, 50, [], false⟩ u.pipeline.redis).1 = 0)) = true := by
    decide +kernel
  obtain ⟨t, ht, hp⟩ := (Option.any_eq_true _ _).mp hres
  obtain ⟨hrebuilds, hafter⟩ := (Bool.and_eq_true _ _).mp hp
  obtain ⟨u, hu, hp⟩ := (Option.any_eq_true _ _).mp hafter
  obtain ⟨hbuyer, hnot, hreply⟩ := of_decide_eq_true hp
  exact ⟨t, u, ht, hrebuilds, hu, Or.inr (Or.inr hbuyer), hnot, hreply⟩

end Hmdp.Reconcile
