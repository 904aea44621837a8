import Hmdp.Pipeline.Effect
import Hmdp.Reconcile.Publish

/-!
# What a reconciliation computes

A call that nobody disturbs reads the outbox, the orders and the handoff set of one moment, which
overlap: a member may have its outbox row already, an outbox row its order row, and the order may be
cancelled. Stock and users are counted by different rules. The stock leaves out a member whose
order has an outbox row, whether it is counted there or persisted by now; the user of a member is
added in any case.

* **`computes_outstanding_iff`**: what the pipeline leaves behind (`LeftBehind`) is counted right,
  and the users are right iff nobody whose cancelled order still has a member is taken for a buyer
  (`LeftoversLive`).
* **`counts_cancelled_buyer`**: in general not.
* `leftBehind_of_coherent`: every state of the pipeline is as assumed.
-/

namespace Hmdp.Reconcile.Timed

open Hmdp.Lib Hmdp.Model Hmdp.Pipeline

/-! ## What there is to compute -/

/-- The reservations in the handoff set or in the outbox that have no order row. -/
def outstandingReservations (v : VoucherId) (redis : Redis) (db : Db) : Finset Reservation :=
  (handoffReservations v redis ∪ outboxReservations v db).filter fun r =>
    db.hasOrder r.orderId = false

/-- The number of their order ids. -/
def outstandingCount (v : VoucherId) (redis : Redis) (db : Db) : ℕ :=
  ((outstandingReservations v redis db).image Reservation.orderId).card

/-- The user has an order that is not cancelled, or an outstanding reservation. -/
def Buys (v : VoucherId) (redis : Redis) (db : Db) (user : UserId) : Prop :=
  (∃ row ∈ db.orders.rows, row.voucherId = v ∧ row.status ≠ .cancelled ∧ row.userId = user) ∨
    ∃ r ∈ outstandingReservations v redis db, r.userId = user

/-- The stock and the purchased users in `after` are those of the content of `redis` and `db`. -/
structure ComputesOutstanding (v : VoucherId) (redis : Redis) (db : Db) (after : Redis) : Prop where
  stock : ∀ S, db.stock v = some S →
    after.stock v = some (max 0 (S - outstandingCount v redis db))
  users : ∀ user, user ∈ after.purchased v ↔ Buys v redis db user

/-- What the pipeline can leave behind: the members have distinct order ids, an outbox row with the
order id of a member is the row of that order, an order row has an outbox row, and a completed
outbox row has an order row. -/
structure LeftBehind (v : VoucherId) (redis : Redis) (db : Db) : Prop where
  distinct : (((redis.handoff v).members.filterMap (parseMember v)).map Reservation.orderId).Nodup
  outboxRow : ∀ r ∈ handoffReservations v redis, ∀ e ∈ db.outbox.rows, e.orderId = r.orderId →
    e.voucherId = v ∧ e.userId = r.userId
  orderRow : ∀ row ∈ db.orders.rows, ∃ e ∈ db.outbox.rows,
    e.orderId = row.id ∧ e.voucherId = row.voucherId ∧ e.userId = row.userId
  completed : ∀ e ∈ db.outbox.rows, e.status = .completed → db.hasOrder e.orderId = true

/-- The user of a member whose order is cancelled buys something else. -/
def LeftoversLive (v : VoucherId) (redis : Redis) (db : Db) : Prop :=
  ∀ r ∈ handoffReservations v redis, ∀ row ∈ db.orders.rows, row.id = r.orderId →
    row.status = .cancelled → Buys v redis db r.userId

/-! ## What the call computes -/

/-- `reservedOrderIds` after the outbox read. -/
def reservedOrderIds (v : VoucherId) (db : Db) : LinkedSet OrderId :=
  LinkedSet.empty.addAll ((findUnpersistedEvents v db).map fun e => e.orderId)

/-- `purchasedUserIds` after the outbox read. -/
def unpersistedUserIds (v : VoucherId) (db : Db) : LinkedSet UserId :=
  LinkedSet.empty.addAll ((findUnpersistedEvents v db).map fun e => e.userId)

/-- The loop of `mergeHandoffReservations` over the members still to be looked at. -/
def mergeHandoffReservations (v : VoucherId) (db : Db) (purchasedUserIds : LinkedSet UserId)
    (handoffOnly : ℕ) : List Text → LinkedSet UserId × ℕ
  | [] => (purchasedUserIds, handoffOnly)
  | member :: members =>
    match parseMember v member with
    | none => mergeHandoffReservations v db purchasedUserIds handoffOnly members
    | some event =>
      let purchasedUserIds := purchasedUserIds.add event.userId
      if event.orderId ∈ (reservedOrderIds v db).elements then
        mergeHandoffReservations v db purchasedUserIds handoffOnly members
      else if (findByOrderId event.orderId db).isNone then
        mergeHandoffReservations v db purchasedUserIds (handoffOnly + 1) members
      else mergeHandoffReservations v db purchasedUserIds handoffOnly members

/-- The users and the handoff-only reservations a call ends up with. -/
def collect (v : VoucherId) (redis : Redis) (db : Db) : LinkedSet UserId × ℕ :=
  mergeHandoffReservations v db ((unpersistedUserIds v db).addAll (findActiveUserIds v db)) 0
    (redis.handoff v).members

/-- The stock a call publishes. -/
def expectedStock (v : VoucherId) (mysqlStock : ℤ) (redis : Redis) (db : Db) : ℤ :=
  max 0 (mysqlStock - (reservedOrderIds v db).size - (collect v redis db).2)

variable {v : VoucherId} {redis : Redis} {db : Db}

/-- The member stands for a handoff-only reservation. -/
def handoffOnly (v : VoucherId) (db : Db) (r : Reservation) : Bool :=
  decide (r.orderId ∉ (reservedOrderIds v db).elements) && (findByOrderId r.orderId db).isNone

/-- The users the loop adds are those of all members. -/
theorem mem_mergeHandoffReservations {members : List Text} {user : UserId}
    (purchasedUserIds : LinkedSet UserId) (n : ℕ) :
    user ∈ (mergeHandoffReservations v db purchasedUserIds n members).1.elements ↔
      user ∈ purchasedUserIds.elements ∨
        ∃ r ∈ members.filterMap (parseMember v), r.userId = user := by
  induction members generalizing purchasedUserIds n with
  | nil => simp [mergeHandoffReservations]
  | cons member members ih =>
    unfold mergeHandoffReservations
    cases hparse : parseMember v member with
    | none =>
      rw [List.filterMap_cons_none hparse]
      exact ih purchasedUserIds n
    | some event =>
      have hadd : ∀ k, user ∈ (mergeHandoffReservations v db (purchasedUserIds.add event.userId) k
          members).1.elements ↔ user ∈ purchasedUserIds.elements ∨
            ∃ r ∈ (member :: members).filterMap (parseMember v), r.userId = user := by
        intro k
        rw [ih, LinkedSet.mem_add, List.filterMap_cons_some hparse]
        simp only [List.mem_cons, exists_eq_or_imp]
        rw [eq_comm, or_assoc]
        tauto
      dsimp only
      split
      · exact hadd n
      · split
        · exact hadd (n + 1)
        · exact hadd n

/-- The loop counts the handoff-only reservations. -/
theorem count_mergeHandoffReservations {members : List Text} (purchasedUserIds : LinkedSet UserId)
    (n : ℕ) : (mergeHandoffReservations v db purchasedUserIds n members).2 =
      n + ((members.filterMap (parseMember v)).filter (handoffOnly v db)).length := by
  induction members generalizing purchasedUserIds n with
  | nil => rfl
  | cons member members ih =>
    unfold mergeHandoffReservations
    cases hparse : parseMember v member with
    | none =>
      rw [List.filterMap_cons_none hparse]
      exact ih purchasedUserIds n
    | some event =>
      rw [List.filterMap_cons_some hparse]
      dsimp only
      split
      · rename_i hmem
        rw [ih, List.filter_cons_of_neg (by simp [handoffOnly, hmem])]
      · rename_i hnot
        split
        · rename_i hnone
          rw [ih, List.filter_cons_of_pos (by simp [handoffOnly, hnot, hnone]), List.length_cons]
          omega
        · rename_i hsome
          rw [ih, List.filter_cons_of_neg (by simp [handoffOnly, hsome])]

/-! ## What is left behind is counted right -/

theorem mem_outstandingReservations {r : Reservation} :
    r ∈ outstandingReservations v redis db ↔
      (r ∈ handoffReservations v redis ∨ r ∈ outboxReservations v db) ∧
        db.hasOrder r.orderId = false := by
  rw [outstandingReservations, Finset.mem_filter, Finset.mem_union]

theorem mem_outboxReservations {r : Reservation} :
    r ∈ outboxReservations v db ↔ ∃ e ∈ db.outbox.rows, e.voucherId = v ∧ e.reservation = r := by
  simp only [outboxReservations, List.mem_toFinset, List.mem_map, List.mem_filter,
    decide_eq_true_eq, and_assoc]

theorem handoffOnly_iff {r : Reservation} : handoffOnly v db r = true ↔
    r.orderId ∉ (reservedOrderIds v db).elements ∧
      ∀ e ∈ db.outbox.rows, e.orderId ≠ r.orderId := by
  simp only [handoffOnly, Bool.and_eq_true, decide_eq_true_eq, Option.isNone_iff_eq_none,
    findByOrderId, List.find?_eq_none]

namespace LeftBehind

/-- An order without an outbox row has no order row. -/
theorem hasOrder_of_no_outboxRow (h : LeftBehind v redis db) {o : OrderId}
    (ho : ∀ e ∈ db.outbox.rows, e.orderId ≠ o) : db.hasOrder o = false := by
  rw [Db.not_hasOrder_iff]
  intro row hrow hid
  obtain ⟨e, he, heid, -⟩ := h.orderRow row hrow
  exact ho e he (heid.trans hid)

/-- An outbox row of the voucher without an order row is read. -/
theorem mem_findUnpersistedEvents (h : LeftBehind v redis db) {e : OutboxRow} :
    e ∈ findUnpersistedEvents v db ↔
      e ∈ db.outbox.rows ∧ e.voucherId = v ∧ db.hasOrder e.orderId = false := by
  simp only [findUnpersistedEvents, List.mem_filter, Bool.and_eq_true, decide_eq_true_eq,
    Bool.not_eq_true']
  refine and_congr_right fun he => ?_
  rw [and_assoc]
  refine and_congr_right fun _ => and_iff_right_of_imp fun hnone hcompleted => ?_
  exact absurd ((h.completed e he hcompleted).symm.trans hnone) (by simp)

/-- **The order ids that are outstanding** are those the outbox read collects and those of the
handoff-only members. -/
theorem outstandingIds_eq (h : LeftBehind v redis db) :
    (outstandingReservations v redis db).image Reservation.orderId =
      (reservedOrderIds v db).elements.toFinset ∪
        ((((redis.handoff v).members.filterMap (parseMember v)).filter
          (handoffOnly v db)).map Reservation.orderId).toFinset := by
  ext o
  rw [Finset.mem_image, Finset.mem_union, List.mem_toFinset, List.mem_toFinset, List.mem_map]
  constructor
  · rintro ⟨r, hr, rfl⟩
    obtain ⟨hr, hnone⟩ := mem_outstandingReservations.mp hr
    by_cases hreserved : r.orderId ∈ (reservedOrderIds v db).elements
    · exact Or.inl hreserved
    have hout : ∀ e ∈ db.outbox.rows, e.orderId = r.orderId → e.voucherId ≠ v := by
      intro e he hid hv
      refine hreserved (mem_reservedOrderIds.mpr ⟨e, he, hv, fun hcompleted => ?_, ?_, hid⟩)
      · rw [← hid] at hnone
        exact absurd ((h.completed e he hcompleted).symm.trans hnone) (by simp)
      · rw [hid]
        exact hnone
    rcases hr with hr | hr
    · refine Or.inr ⟨r, List.mem_filter.mpr ⟨List.mem_toFinset.mp hr, ?_⟩, rfl⟩
      refine handoffOnly_iff.mpr ⟨hreserved, fun e he hid => ?_⟩
      exact hout e he hid (h.outboxRow r hr e he hid).1
    · obtain ⟨e, he, hv, rfl⟩ := mem_outboxReservations.mp hr
      exact absurd hv (hout e he rfl)
  · rintro (ho | ⟨r, hr, rfl⟩)
    · obtain ⟨e, he, hv, -, hnone, rfl⟩ := mem_reservedOrderIds.mp ho
      refine ⟨e.reservation, mem_outstandingReservations.mpr ⟨Or.inr ?_, hnone⟩, rfl⟩
      exact mem_outboxReservations.mpr ⟨e, he, hv, rfl⟩
    · obtain ⟨hr, honly⟩ := List.mem_filter.mp hr
      refine ⟨r, mem_outstandingReservations.mpr ⟨Or.inl (List.mem_toFinset.mpr hr), ?_⟩, rfl⟩
      exact h.hasOrder_of_no_outboxRow (handoffOnly_iff.mp honly).2

/-- **The stock is right**, whatever overlaps. -/
theorem expectedStock_eq (h : LeftBehind v redis db) (mysqlStock : ℤ) :
    expectedStock v mysqlStock redis db = max 0 (mysqlStock - outstandingCount v redis db) := by
  have hdisjoint : Disjoint (reservedOrderIds v db).elements.toFinset
      ((((redis.handoff v).members.filterMap (parseMember v)).filter
        (handoffOnly v db)).map Reservation.orderId).toFinset := by
    rw [Finset.disjoint_left]
    intro o ho ho'
    obtain ⟨r, hr, rfl⟩ := List.mem_map.mp (List.mem_toFinset.mp ho')
    exact (handoffOnly_iff.mp (List.mem_filter.mp hr).2).1 (List.mem_toFinset.mp ho)
  have hnodup := h.distinct.sublist ((List.filter_sublist (p := handoffOnly v db)).map
    Reservation.orderId)
  have hcount : outstandingCount v redis db =
      (reservedOrderIds v db).size + (collect v redis db).2 := by
    rw [outstandingCount, h.outstandingIds_eq, Finset.card_union_of_disjoint hdisjoint,
      List.toFinset_card_of_nodup hnodup, List.length_map, ← LinkedSet.size_eq_card, collect,
      count_mergeHandoffReservations, Nat.zero_add]
  rw [expectedStock, hcount]
  push_cast
  rw [sub_sub]

/-- The users a call collects are the buyers and the users of all members. -/
theorem mem_collect (h : LeftBehind v redis db) {user : UserId} :
    user ∈ (collect v redis db).1.elements ↔
      Buys v redis db user ∨ ∃ r ∈ handoffReservations v redis, r.userId = user := by
  rw [collect, mem_mergeHandoffReservations, LinkedSet.mem_addAll, mem_findActiveUserIds]
  have hunpersisted : user ∈ (unpersistedUserIds v db).elements ↔
      ∃ r ∈ outboxReservations v db, db.hasOrder r.orderId = false ∧ r.userId = user := by
    simp only [unpersistedUserIds, LinkedSet.mem_addAll, LinkedSet.empty, List.not_mem_nil,
      or_false, List.mem_map, h.mem_findUnpersistedEvents]
    constructor
    · rintro ⟨e, ⟨he, hv, hnone⟩, rfl⟩
      exact ⟨e.reservation, mem_outboxReservations.mpr ⟨e, he, hv, rfl⟩, hnone, rfl⟩
    · rintro ⟨r, hr, hnone, rfl⟩
      obtain ⟨e, he, hv, rfl⟩ := mem_outboxReservations.mp hr
      exact ⟨e, ⟨he, hv, hnone⟩, rfl⟩
  rw [hunpersisted]
  simp only [handoffReservations, List.mem_toFinset, Buys, mem_outstandingReservations]
  constructor
  · rintro ((hactive | ⟨r, hr, hnone, hu⟩) | hmember)
    · exact Or.inl (Or.inl hactive)
    · exact Or.inl (Or.inr ⟨r, ⟨Or.inr hr, hnone⟩, hu⟩)
    · exact Or.inr hmember
  · rintro ((hactive | ⟨r, ⟨hr | hr, hnone⟩, hu⟩) | hmember)
    · exact Or.inl (Or.inl hactive)
    · exact Or.inr ⟨r, hr, hu⟩
    · exact Or.inl (Or.inr ⟨r, hr, hnone, hu⟩)
    · exact Or.inr hmember

/-- **The users are right iff** nobody whose cancelled order still has a member counts as a buyer
without being one. -/
theorem users_iff (h : LeftBehind v redis db) :
    (∀ user, user ∈ (collect v redis db).1.elements ↔ Buys v redis db user) ↔
      LeftoversLive v redis db := by
  constructor
  · intro hall r hr row hrow hid hcancelled
    exact (hall r.userId).mp (h.mem_collect.mpr (Or.inr ⟨r, hr, rfl⟩))
  · intro hlive user
    rw [h.mem_collect]
    refine or_iff_left_of_imp ?_
    rintro ⟨r, hr, rfl⟩
    cases horder : db.hasOrder r.orderId with
    | false => exact Or.inr ⟨r, mem_outstandingReservations.mpr ⟨Or.inl hr, horder⟩, rfl⟩
    | true =>
      obtain ⟨row, hrow, hid⟩ := Db.hasOrder_iff.mp horder
      by_cases hcancelled : row.status = .cancelled
      · exact hlive r hr row hrow hid hcancelled
      -- the order row is that of the member, since their outbox row is
      obtain ⟨e, he, heid, hev, heu⟩ := h.orderRow row hrow
      obtain ⟨hv, hu⟩ := h.outboxRow r hr e he (heid.trans hid)
      exact Or.inl ⟨row, hrow, hev.symm.trans hv, hcancelled, heu.symm.trans hu⟩

end LeftBehind

/-- **What the pipeline leaves behind** is as assumed. -/
theorem leftBehind_of_coherent {rejects : Reservation → Bool} {s : Pipeline.State}
    (h : Coherent rejects s) (v : VoucherId) : LeftBehind v s.redis s.db where
  distinct := by
    rw [List.Nodup, List.pairwise_map, List.pairwise_filterMap]
    refine (s.redis.handoff v).members_nodup.imp_of_mem fun {m m'} hm hm' hne r hr r' hr' hid => ?_
    obtain ⟨a, ha, rfl, rfl⟩ := h.handoff v m hm
    obtain ⟨b, hb, hv, rfl⟩ := h.handoff _ m' hm'
    rw [parseMember_member, Option.some.injEq] at hr
    rw [← hv, parseMember_member, Option.some.injEq] at hr'
    subst hr hr'
    exact hne (congrArg Reservation.member (h.unique ha hb hid))
  outboxRow r hr e he hid := by
    obtain ⟨hgranted, hv, -⟩ := h.mem_handoffReservations.mp hr
    have heq : e.reservation = r := h.unique (h.outbox e he).1 hgranted hid
    exact ⟨(congrArg Reservation.voucherId heq).trans hv, congrArg Reservation.userId heq⟩
  orderRow row hrow := by
    obtain ⟨r, ⟨e, he, rfl⟩, hid, hu, hv⟩ := h.orders row hrow
    exact ⟨e, he, hid, hv, hu⟩
  completed := h.completed

/-! ## What the call reads -/

section Reads

variable {c : Call} {s t : State} {L : Finset UserId}

/-- What a call that stands there has read and computed from `redis` and `db`. -/
def Call.Reads (c : Call) (redis : Redis) (db : Db) : Pc → Prop
  | .start | .running .locked => True
  | .running (.outboxRead reservedOrderIds' purchasedUserIds) =>
    reservedOrderIds' = reservedOrderIds c.voucherId db ∧
      purchasedUserIds = unpersistedUserIds c.voucherId db
  | .running (.ordersRead reservedOrderIds' purchasedUserIds) =>
    reservedOrderIds' = reservedOrderIds c.voucherId db ∧
      purchasedUserIds =
        (unpersistedUserIds c.voucherId db).addAll (findActiveUserIds c.voucherId db)
  | .running (.merging reservedOrderIds' purchasedUserIds members handoffOnly) =>
    reservedOrderIds' = reservedOrderIds c.voucherId db ∧
      mergeHandoffReservations c.voucherId db purchasedUserIds handoffOnly members =
        collect c.voucherId redis db
  | .running (.renewed _ n) | .running (.cleared _ n) | .running (.sentinelAdded _ n)
  | .running (.writing _ n) | .running (.written _ n) =>
    n = expectedStock c.voucherId c.mysqlStock redis db
  | .running .failed | .running .unstaged | .returned _ | .thrown => True

/-- The reads are not over. -/
def Pc.isReading : Pc → Bool
  | .start | .running .locked | .running (.outboxRead _ _) | .running (.ordersRead _ _)
  | .running (.merging _ _ _ _) => true
  | _ => false

/-- The lookup of a member is one turn of the loop. -/
theorem advance_member (c : Call) (s : State) (purchasedUserIds : LinkedSet UserId) (member : Text)
    (members : List Text) (handoffOnly : ℕ) : ∃ purchasedUserIds' handoffOnly',
      (c.advance (.merging (reservedOrderIds c.voucherId s.db) purchasedUserIds (member :: members)
        handoffOnly) s).pc = .running (.merging (reservedOrderIds c.voucherId s.db)
          purchasedUserIds' members handoffOnly') ∧
      mergeHandoffReservations c.voucherId s.db purchasedUserIds' handoffOnly' members =
        mergeHandoffReservations c.voucherId s.db purchasedUserIds handoffOnly
          (member :: members) := by
  unfold Call.advance Rebuild.advance
  dsimp only [Call.rebuild]
  cases hparse : parseMember c.voucherId member with
  | none => exact ⟨_, _, rfl, by simp only [mergeHandoffReservations, hparse]⟩
  | some event =>
    dsimp only
    split
    · rename_i hmem
      exact ⟨_, _, rfl, by simp only [mergeHandoffReservations, hparse, hmem, if_true]⟩
    · rename_i hnot
      split
      · rename_i hnone
        exact ⟨_, _, rfl, by
          simp only [mergeHandoffReservations, hparse, hnot, hnone, if_true, if_false]⟩
      · rename_i hsome
        exact ⟨_, _, rfl, by
          simp only [mergeHandoffReservations, hparse, hnot, hsome, if_false, Bool.false_eq_true]⟩

/-- The next command of the `try` block. -/
theorem reads_advance {phase : Phase} (hpc : s.pc = .running phase)
    (hhandoff : s.redis.handoff c.voucherId = redis.handoff c.voucherId)
    (h : c.Reads redis s.db s.pc) : c.Reads redis s.db (c.advance phase s).pc := by
  rw [hpc] at h
  cases phase with
  | locked => exact ⟨rfl, rfl⟩
  | outboxRead reservedOrderIds' purchasedUserIds =>
    obtain ⟨rfl, rfl⟩ := h
    exact ⟨rfl, rfl⟩
  | ordersRead reservedOrderIds' purchasedUserIds =>
    obtain ⟨rfl, rfl⟩ := h
    refine ⟨rfl, ?_⟩
    rw [collect, ← hhandoff]
    rfl
  | merging reservedOrderIds' purchasedUserIds members handoffOnly =>
    obtain ⟨rfl, h⟩ := h
    cases members with
    | nil =>
      have hstock : max 0 (c.mysqlStock - (reservedOrderIds c.voucherId s.db).size - handoffOnly) =
          expectedStock c.voucherId c.mysqlStock redis s.db := by
        rw [expectedStock, ← h]
        rfl
      rcases c.advance_renew s (.merging (reservedOrderIds c.voucherId s.db) purchasedUserIds []
        handoffOnly) (.renewed purchasedUserIds _) rfl with heq | heq
      · rw [heq]
        exact hstock
      · rw [heq]
        trivial
    | cons member members =>
      obtain ⟨purchasedUserIds', handoffOnly', heq, hmerge⟩ :=
        advance_member c s purchasedUserIds member members handoffOnly
      rw [heq]
      exact ⟨rfl, hmerge.trans h⟩
  | renewed purchasedUserIds expectedStock => exact h
  | cleared purchasedUserIds expectedStock => exact h
  | sentinelAdded userIds expectedStock => exact h
  | writing userIds expectedStock =>
    cases userIds with
    | nil =>
      rcases rebuildLua_cases c.voucherId c.token expectedStock s.redis with ⟨-, heq⟩ | ⟨-, heq⟩
      · simp [Call.advance, Rebuild.advance, Call.rebuild, heq, Pc.after, Call.Reads]
      · simp [Call.advance, Rebuild.advance, Call.rebuild, heq, Pc.after, Call.Reads]
    | cons u userIds => exact h
  | written userIds expectedStock =>
    rcases c.advance_renew s (.written userIds expectedStock) (.writing userIds expectedStock)
      rfl with heq | heq
    · rw [heq]
      exact h
    · rw [heq]
      trivial
  | failed => trivial
  | unstaged => trivial

theorem reads_execute (hhandoff : s.redis.handoff c.voucherId = redis.handoff c.voucherId)
    (h : c.Reads redis s.db s.pc) : c.Reads redis s.db (c.execute s).pc := by
  unfold Call.execute
  cases hpc : s.pc with
  | start =>
    dsimp only
    split
    · trivial
    · split <;> trivial
  | running phase => exact reads_advance hpc hhandoff h
  | returned acquired => trivial
  | thrown => trivial

/-- A reading call that has not met its last member reads on, or has nothing to publish. -/
theorem reading_execute (hreading : s.pc.isReading = true) (hmore : s.pc.collected = none)
    (h : c.Reads redis s.db s.pc) : (c.execute s).pc.isReading = true ∨
      ∀ U L staged, (c.execute s).pc.Users U L staged := by
  unfold Call.execute
  cases hpc : s.pc with
  | start =>
    dsimp only
    split
    · exact Or.inr fun _ _ _ => trivial
    · split
      · exact Or.inl rfl
      · exact Or.inr fun _ _ _ => trivial
  | running phase =>
    rw [hpc] at hreading hmore h
    cases phase with
    | locked => exact Or.inl rfl
    | outboxRead reservedOrderIds' purchasedUserIds => exact Or.inl rfl
    | ordersRead reservedOrderIds' purchasedUserIds => exact Or.inl rfl
    | merging reservedOrderIds' purchasedUserIds members handoffOnly =>
      obtain ⟨rfl, -⟩ := h
      cases members with
      | nil => exact absurd hmore (by simp [Pc.collected])
      | cons member members =>
        obtain ⟨purchasedUserIds', handoffOnly', heq, -⟩ :=
          advance_member c s purchasedUserIds member members handoffOnly
        dsimp only
        rw [heq]
        exact Or.inl rfl
    | _ => exact absurd hreading (by simp [Pc.isReading])
  | _ =>
    rw [hpc] at hreading
    exact absurd hreading (by simp [Pc.isReading])

end Reads

/-! ## Undisturbed -/

section Alone

variable {c : Call} {s t : State} {L : Finset UserId}

/-- Others do nothing. -/
def Action.alone : Action → Bool
  | .others _ _ _ _ => false
  | _ => true

/-- Neither the call nor the time changes what it reads. -/
theorem content_step {a : Action} (ha : a.alone = true) (hstep : c.step s a = some t) :
    t.db = s.db ∧ t.redis.handoff = s.redis.handoff := by
  have hexecute : (c.execute s).db = s.db ∧ (c.execute s).redis.handoff = s.redis.handoff := by
    unfold Call.execute
    cases s.pc with
    | start =>
      dsimp only
      split
      · exact ⟨rfl, rfl⟩
      · rcases lockRecovery_cases c.voucherId c.token s.redis with ⟨-, heq⟩ | ⟨-, heq⟩
        · rw [heq]
          exact ⟨rfl, rfl⟩
        · rw [heq]
          exact ⟨rfl, rfl⟩
    | running phase =>
      refine ⟨rfl, ?_⟩
      show ((c.rebuild phase).advance c.batchSize s.redis s.db).1.handoff = s.redis.handoff
      cases (c.rebuild phase).advance_writes c.batchSize s.redis s.db with
      | nothing same => rw [same]
      | staged staging write =>
        rw [write]
        rfl
      | rebuilt expectedStock _ held write => rw [write]
      | unlocked held write => rw [write]
    | _ => exact ⟨rfl, rfl⟩
  cases a with
  | wait milliseconds =>
    cases hstep
    exact ⟨rfl, rfl⟩
  | others redis db recoveryUntil orderUntil => exact absurd ha (by simp [Action.alone])
  | command =>
    obtain ⟨pc, -, rfl⟩ := Option.map_eq_some_iff.mp hstep
    exact hexecute
  | fail applied =>
    obtain ⟨pc, -, rfl⟩ := Option.map_eq_some_iff.mp hstep
    cases applied with
    | true => exact hexecute
    | false => exact ⟨rfl, rfl⟩

/-- What is known of a call nobody disturbs, with the users `L` missing. -/
structure Undisturbed (c : Call) (redis : Redis) (db : Db) (L : Finset UserId) (s : State) :
    Prop where
  sameDb : s.db = db
  sameHandoff : s.redis.handoff c.voucherId = redis.handoff c.voucherId
  reads : c.Reads redis db s.pc
  users : c.Staged (collect c.voucherId redis db).1.elements.toFinset L s ∨
    s.pc.isReading = true ∧ L = ∅

theorem reads_step {a : Action} (ha : a.alone = true)
    (hhandoff : s.redis.handoff c.voucherId = redis.handoff c.voucherId)
    (h : c.Reads redis s.db s.pc) (hstep : c.step s a = some t) : c.Reads redis s.db t.pc := by
  cases a with
  | wait milliseconds =>
    cases hstep
    exact h
  | others redis db recoveryUntil orderUntil => exact absurd ha (by simp [Action.alone])
  | command =>
    obtain ⟨pc, -, rfl⟩ := Option.map_eq_some_iff.mp hstep
    exact reads_execute hhandoff h
  | fail applied =>
    obtain ⟨pc, hpc, rfl⟩ := Option.map_eq_some_iff.mp hstep
    rcases throw_cases hpc with rfl | rfl <;> trivial

theorem undisturbed_step {a : Action} (ha : a.alone = true) (h : Undisturbed c redis db L s)
    (hstep : c.step s a = some t) :
    ∃ L', Undisturbed c redis db L' t ∧ (L' = ∅ ↔ L = ∅ ∧ c.KeepsStaging s a) := by
  obtain ⟨rfl, hhandoff, hreads, husers⟩ := h
  obtain ⟨hdb, hhandoff'⟩ := content_step ha hstep
  have hreads' := reads_step ha hhandoff hreads hstep
  have hhandoff'' := (congrFun hhandoff' c.voucherId).trans hhandoff
  by_cases hstaged : c.Staged (collect c.voucherId redis s.db).1.elements.toFinset L s
  · obtain ⟨L', hL', hiff⟩ := staged_step hstaged hstep
    exact ⟨L', ⟨hdb, hhandoff'', hreads', Or.inl hL'⟩, hiff⟩
  obtain ⟨hreading, rfl⟩ := husers.resolve_left hstaged
  have hmore : s.pc.collected = none := by
    rw [Option.eq_none_iff_forall_not_mem]
    intro U hU
    obtain ⟨reservedOrderIds, handoffOnly, hpc⟩ := collected_eq_some hU
    rw [hpc] at hreads
    refine hstaged ?_
    rw [← hreads.2]
    exact staged_of_collected hU
  refine ⟨∅, ⟨hdb, hhandoff'', hreads', ?_⟩, ⟨fun _ => ⟨rfl, ?_⟩, fun _ => rfl⟩⟩
  · cases a with
    | wait milliseconds =>
      cases hstep
      exact Or.inr ⟨hreading, rfl⟩
    | others redis db recoveryUntil orderUntil => exact absurd ha (by simp [Action.alone])
    | command =>
      obtain ⟨pc, -, rfl⟩ := Option.map_eq_some_iff.mp hstep
      rcases reading_execute hreading hmore hreads with hnext | hnext
      · exact Or.inr ⟨hnext, rfl⟩
      · exact Or.inl (hnext _ _ _)
    | fail applied =>
      obtain ⟨pc, hpc, rfl⟩ := Option.map_eq_some_iff.mp hstep
      rcases throw_cases hpc with rfl | rfl
      · exact Or.inl trivial
      · exact Or.inl trivial
  · cases a with
    | wait milliseconds =>
      intro hwriting
      unfold Pc.isWriting at hwriting
      split at hwriting
      · rename_i hpc
        rw [hpc] at hreading
        exact absurd hreading (by simp [Pc.isReading])
      · rename_i hpc
        rw [hpc] at hreading
        exact absurd hreading (by simp [Pc.isReading])
      · exact absurd hwriting (by simp)
    | _ => trivial

/-- A call that has acquired the key returns right after its rebuild script. -/
theorem rebuilds_of_returned (hstep : c.step s .command = some t)
    (hreturn : t.pc = .returned true) : c.rebuilds s .command = true := by
  obtain ⟨pc, hthrow, rfl⟩ := Option.map_eq_some_iff.mp hstep
  unfold Call.execute at hreturn
  unfold Call.rebuilds
  cases hpc : s.pc with
  | start =>
    rw [hpc] at hreturn
    dsimp only at hreturn
    split at hreturn
    · exact absurd hreturn (by simp)
    · split at hreturn <;> exact absurd hreturn (by simp)
  | running phase =>
    rw [hpc] at hreturn
    have hdone : ((c.rebuild phase).advance c.batchSize s.redis s.db).2 = .done := by
      have hafter : Pc.after ((c.rebuild phase).advance c.batchSize s.redis s.db).2 =
        .returned true := hreturn
      unfold Pc.after at hafter
      split at hafter
      · exact absurd hafter (by simp)
      · assumption
      · exact absurd hafter (by simp)
    obtain ⟨⟨expectedStock, hphase⟩, hheld⟩ := Rebuild.advance_done hdone
    obtain rfl : phase = .writing [] expectedStock := hphase
    exact decide_eq_true hheld
  | returned acquired =>
    rw [hpc] at hthrow
    exact absurd hthrow (by simp [Pc.throw])
  | thrown =>
    rw [hpc] at hthrow
    exact absurd hthrow (by simp [Pc.throw])

/-- **What a reconciliation computes.** Nobody disturbs the call, it returns normally, and its
staging set is kept. The content it finds is one the pipeline can leave behind. -/
theorem computes_outstanding_iff (c : Call) {s u t : State} {as : List Action}
    (hleft : LeftBehind c.voucherId s.redis s.db)
    (hstock : s.db.stock c.voucherId = some c.mysqlStock) (hpc : s.pc = .start)
    (halone : ∀ a ∈ as, a.alone = true) (hrun : run c.step s as = some u)
    (hstep : c.step u .command = some t) (hreturn : t.pc = .returned true)
    (hkeep : Along c.step c.KeepsStaging s as) :
    ComputesOutstanding c.voucherId s.redis s.db t.redis ↔
      LeftoversLive c.voucherId s.redis s.db := by
  have hstart : Undisturbed c s.redis s.db ∅ s := by
    refine ⟨rfl, rfl, ?_, Or.inr ⟨?_, rfl⟩⟩
    · rw [hpc]
      trivial
    · rw [hpc]
      rfl
  obtain ⟨L, hL, hiff⟩ := run_tracked (fun _ _ _ _ ha h hstep => undisturbed_step ha h hstep)
    (along_of_forall (P := fun _ a => a.alone = true) (fun a ha _ => halone a ha) s) hstart hrun
  obtain rfl : L = ∅ := hiff.mpr ⟨rfl, hkeep⟩
  obtain ⟨n, hscript, hpublished, husers⟩ :=
    redis_of_rebuilds (rebuilds_of_returned hstep hreturn) hstep
  have hn : n = expectedStock c.voucherId c.mysqlStock s.redis s.db := by
    have hreads := hL.reads
    rw [hscript] at hreads
    exact hreads
  have hstaged := hL.users.resolve_right fun h => by
    rw [hscript] at h
    exact absurd h.1 (by simp [Pc.isReading])
  rw [(staged_of_script hscript hstaged).1, Finset.sdiff_empty] at husers
  rw [← hleft.users_iff]
  constructor
  · intro h user
    rw [← List.mem_toFinset, ← husers]
    exact h.users user
  · intro h
    refine ⟨fun S hS => ?_, fun user => ?_⟩
    · rw [hpublished, hn, hleft.expectedStock_eq, Option.some.inj (hstock.symm.trans hS)]
    · rw [husers, List.mem_toFinset]
      exact h user

end Alone

instance (v : VoucherId) (redis : Redis) (db : Db) (user : UserId) :
    Decidable (Buys v redis db user) := by
  unfold Buys
  infer_instance

/-- The call has acquired the key and returned. -/
def Pc.hasReturned : Pc → Bool
  | .returned true => true
  | _ => false

theorem returned_of_hasReturned {pc : Pc} (h : pc.hasReturned = true) : pc = .returned true := by
  unfold Pc.hasReturned at h
  split at h
  · rfl
  · exact absurd h (by simp)

/-- A call is about to start on what the pipeline has left. -/
def before (p : Pipeline.State) : State := ⟨0, p.redis, p.db, none, none, none, .start⟩

/-- User 5 buys, and the relay dies after its commit. -/
def relayCrashed : List Pipeline.Action :=
  [buy 1 5, .fetch 0 7 1 0, .relayTask 0, .crash 0]

/-- The order then reaches the table and is cancelled. -/
def cancelledAfterCrash : List Pipeline.Action :=
  relayCrashed ++ [.send (rowOf 1 1 5) true,
    .createOrders atZero [(rowOf 1 1 5).toMessage true],
    .selectOrder 0 NewestFirst.first 5 7, .cancel 0]

/-- A call for voucher 7 with the settings of `application.yaml`. -/
def asConfigured : Call := ⟨7, 10, ['t'], 300, 500⟩

theorem computes_outstanding_crashed :
    ∃ p u t, run (Pipeline.step fun _ => false) (onSale 10) relayCrashed = some p ∧
      run asConfigured.step (before p) (List.replicate 11 .command) = some u ∧
        asConfigured.step u .command = some t ∧ t.pc = .returned true ∧
          (ComputesOutstanding 7 p.redis p.db t.redis ↔ LeftoversLive 7 p.redis p.db) := by
  have hres : (run (Pipeline.step fun _ => false) (onSale 10) relayCrashed).any (fun p =>
      decide (p.db.stock 7 = some 10) &&
        (run asConfigured.step (before p) (List.replicate 11 .command)).any fun u =>
          (asConfigured.step u .command).any fun t => t.pc.hasReturned) = true := by
    decide +kernel
  obtain ⟨p, hp, hres⟩ := (Option.any_eq_true _ _).mp hres
  obtain ⟨hstock, hres⟩ := (Bool.and_eq_true _ _).mp hres
  obtain ⟨u, hu, hres⟩ := (Option.any_eq_true _ _).mp hres
  obtain ⟨t, ht, hreturn⟩ := (Option.any_eq_true _ _).mp hres
  have hreturn := returned_of_hasReturned hreturn
  have hleft := leftBehind_of_coherent (coherent_run (start_onSale 10).coherent hp) 7
  refine ⟨p, u, t, hp, hu, ht, hreturn, computes_outstanding_iff asConfigured (s := before p) hleft
    (of_decide_eq_true hstock) rfl (fun a ha => ?_) hu ht hreturn
    (along_of_forall (fun a ha s => ?_) _)⟩
  · rw [List.eq_of_mem_replicate ha]
    rfl
  · rw [List.eq_of_mem_replicate ha]
    trivial

/-- **The law fails**: the order of user 5 is cancelled, but the relay that handed it over died
before it removed the member, so user 5 is a purchased user again. -/
theorem counts_cancelled_buyer :
    ∃ p u t, run (Pipeline.step fun _ => false) (onSale 10) cancelledAfterCrash = some p ∧
      LeftBehind 7 p.redis p.db ∧ p.db.stock 7 = some 10 ∧
        run asConfigured.step (before p) (List.replicate 11 .command) = some u ∧
          asConfigured.step u .command = some t ∧ t.pc = .returned true ∧
            5 ∈ t.redis.purchased 7 ∧ ¬Buys 7 p.redis p.db 5 := by
  have hres : (run (Pipeline.step fun _ => false) (onSale 10) cancelledAfterCrash).any (fun p =>
      decide (p.db.stock 7 = some 10 ∧ ¬Buys 7 p.redis p.db 5) &&
        (run asConfigured.step (before p) (List.replicate 11 .command)).any fun u =>
          (asConfigured.step u .command).any fun t =>
            t.pc.hasReturned && decide (5 ∈ t.redis.purchased 7)) = true := by
    decide +kernel
  obtain ⟨p, hp, hres⟩ := (Option.any_eq_true _ _).mp hres
  obtain ⟨hcontent, hres⟩ := (Bool.and_eq_true _ _).mp hres
  obtain ⟨hstock, hnot⟩ := of_decide_eq_true hcontent
  obtain ⟨u, hu, hres⟩ := (Option.any_eq_true _ _).mp hres
  obtain ⟨t, ht, hres⟩ := (Option.any_eq_true _ _).mp hres
  obtain ⟨hreturn, hmem⟩ := (Bool.and_eq_true _ _).mp hres
  exact ⟨p, u, t, hp, leftBehind_of_coherent (coherent_run (start_onSale 10).coherent hp) 7, hstock,
    hu, ht, returned_of_hasReturned hreturn, of_decide_eq_true hmem, hnot⟩

end Hmdp.Reconcile.Timed
