import Hmdp.Lib.Machine
import Hmdp.Model.Cancel
import Hmdp.Model.Subscription

/-!
# The subscription status and the facts it sums up

`subscribe`, `unsubscribe`, purchases through `seckill.lua`, committed cancellations and queries,
one after the other. `getSubscribeStatus` answers from the status hash where that has an entry, and
computes the status from the order set and the subscriber set only where it has none.

`subscribe` and `unsubscribe` write the entry from the same facts. A purchase and a cancellation
change the facts and leave the entry: their callbacks `markPurchased` and `clearPurchased` are
empty.

* **`accurate_step`**: a step keeps all statuses accurate exactly if it meets the condition `Holds`.
* **`status_accurate_iff`**: the same for whole runs.
-/

namespace Hmdp.SubscriptionStatus

open Hmdp.Lib Hmdp.Model

/-- The status the facts give. -/
def computedStatus (s : Subscriptions) (orders : VoucherId → Finset UserId) (v : VoucherId)
    (u : UserId) : VoucherSubscribeStatus :=
  if u ∈ orders v then .issued
  else if u.toText ∈ s.subscribers v then .subscribed
  else .unsubscribed

/-- The keys of the orders and of the subscriptions. -/
structure State where
  redis : Redis
  store : Subscriptions

/-- The requests, one at a time. -/
inductive Action where
  | subscribe (v : VoucherId) (u : UserId) (source : TtlSource) (now : ℤ)
  | unsubscribe (v : VoucherId) (u : UserId) (source : TtlSource) (now : ℤ)
  | purchase (call : SeckillCall)
  /-- `db` is the database the transaction begins with -/
  | cancel (order : VoucherOrder) (db : Db)
  | getSubscribeStatus (v : VoucherId) (u : UserId)

/-- Nobody has subscribed. -/
def State.init (redis : Redis) : State := ⟨redis, .empty⟩

/-- One request; `none` where it does not end. -/
def step (s : State) : Action → Option State
  | .subscribe v u source now =>
    ((SubscriptionCall.subscribe v u .resolveTtl).complete s.redis.purchased source now 10
      s.store).map fun store => { s with store }
  | .unsubscribe v u source now =>
    ((SubscriptionCall.unsubscribe v u .remove).complete s.redis.purchased source now 10
      s.store).map fun store => { s with store }
  | .purchase call =>
    let r := seckillLua call s.redis
    some ⟨r.2, if r.1 = 0 then markPurchased s.store else s.store⟩
  | .cancel order db =>
    let r := cancelLua order.voucherId order.userId s.redis
    if (cancelInTransaction order db).isSome ∧ 0 ≤ r.1 then some ⟨r.2, clearPurchased s.store⟩
    else none
  | .getSubscribeStatus _ _ => some s

/-- The answer of `getSubscribeStatus` is the status the facts give. -/
def Accurate (v : VoucherId) (u : UserId) (s : State) : Prop :=
  getSubscribeStatus s.store s.redis.purchased v u =
    (computedStatus s.store s.redis.purchased v u).getCode

instance (v : VoucherId) (u : UserId) (s : State) : Decidable (Accurate v u s) := by
  unfold Accurate
  infer_instance

/-- **The condition on a step**: a user who buys, and one whose purchase is cancelled, has no entry
in the status hash. -/
def Holds (s : State) : Action → Prop
  | .purchase call =>
    (seckillLua call s.redis).1 = 0 → s.store.status call.voucherId call.userId = none
  | .cancel order _ =>
    order.userId ∈ s.redis.purchased order.voucherId →
      s.store.status order.voucherId order.userId = none
  | _ => True

instance (s : State) (a : Action) : Decidable (Holds s a) := by
  cases a <;> unfold Holds <;> infer_instance

section Answer

variable {v : VoucherId} {u : UserId} {s t : State}

theorem getCode_injective {a b : VoucherSubscribeStatus} (h : a.getCode = b.getCode) : a = b := by
  cases a <;> cases b <;> first | rfl | exact absurd h (by decide)

/-- Without an entry the answer is computed. -/
theorem accurate_of_none (h : s.store.status v u = none) : Accurate v u s := by
  simp only [Accurate, getSubscribeStatus, computedStatus, h,
    apply_ite VoucherSubscribeStatus.getCode]

/-- An entry is the answer. -/
theorem accurate_of_some (status : VoucherSubscribeStatus)
    (h : s.store.status v u = some status.getCode) :
    Accurate v u s ↔ computedStatus s.store s.redis.purchased v u = status := by
  unfold Accurate getSubscribeStatus
  rw [h]
  exact ⟨fun heq => (getCode_injective heq).symm, fun heq => by rw [heq]⟩

/-- A step that changes neither the entry nor the facts of a pair. -/
theorem accurate_congr (hstatus : t.store.status v u = s.store.status v u)
    (horder : u ∈ t.redis.purchased v ↔ u ∈ s.redis.purchased v)
    (hmem : u.toText ∈ t.store.subscribers v ↔ u.toText ∈ s.store.subscribers v) :
    Accurate v u t ↔ Accurate v u s := by
  simp only [Accurate, getSubscribeStatus, computedStatus, hstatus, horder, hmem]

/-- The facts change to another status: an entry that was right is wrong now. -/
theorem accurate_of_changed (hs : Accurate v u s)
    (hstatus : t.store.status v u = s.store.status v u)
    (hne : computedStatus t.store t.redis.purchased v u ≠
      computedStatus s.store s.redis.purchased v u) :
    Accurate v u t ↔ s.store.status v u = none := by
  constructor
  · intro ht
    unfold Accurate getSubscribeStatus at hs ht
    rw [hstatus] at ht
    cases hentry : s.store.status v u with
    | none => rfl
    | some code =>
      rw [hentry] at hs ht
      exact absurd (getCode_injective (ht.symm.trans hs)) hne
  · exact fun hnone => accurate_of_none (hstatus.trans hnone)

end Answer

section Step

variable {s t : State}

/-- `subscribe` writes what the facts then give. -/
theorem accurate_subscribe {v v' : VoucherId} {u u' : UserId} {source : TtlSource} {now : ℤ}
    (hs : Accurate v' u' s) (hstep : step s (.subscribe v u source now) = some t) :
    Accurate v' u' t := by
  simp only [step, SubscriptionCall.complete_subscribe, Option.map_some] at hstep
  cases hstep
  split
  · exact hs
  by_cases hpair : v' = v ∧ u' = u
  · obtain ⟨rfl, rfl⟩ := hpair
    split
    · rename_i horder
      refine (accurate_of_some .issued ?_).mpr ?_
      · simp [Subscriptions.status_setStatus]
      · simp [computedStatus, horder]
    · rename_i horder
      refine (accurate_of_some .subscribed ?_).mpr ?_
      · simp [Subscriptions.status_setStatus]
      · simp [computedStatus, horder, Subscriptions.mem_addSubscriber]
  · split
    · refine (accurate_congr (s := s) ?_ ?_ ?_).mpr hs
      · simp [Subscriptions.status_setStatus, hpair]
      · rfl
      · rfl
    · refine (accurate_congr (s := s) ?_ ?_ ?_).mpr hs
      · simp [Subscriptions.status_setStatus, hpair]
      · rfl
      · simp [Subscriptions.mem_addSubscriber, hpair]

/-- `unsubscribe` writes what the facts then give, or leaves no entry. -/
theorem accurate_unsubscribe {v v' : VoucherId} {u u' : UserId} {source : TtlSource} {now : ℤ}
    (hs : Accurate v' u' s) (hstep : step s (.unsubscribe v u source now) = some t) :
    Accurate v' u' t := by
  simp only [step, SubscriptionCall.complete_unsubscribe, Option.map_some] at hstep
  cases hstep
  by_cases hpair : v' = v ∧ u' = u
  · obtain ⟨rfl, rfl⟩ := hpair
    split
    · rename_i horder
      refine (accurate_of_some .issued ?_).mpr ?_
      · simp [Subscriptions.status_setStatus]
      · simp [computedStatus, horder]
    · exact accurate_of_none (by simp [Subscriptions.status_setStatus])
  · refine (accurate_congr (s := s) ?_ ?_ ?_).mpr hs
    · simp [Subscriptions.status_setStatus, hpair]
    · rfl
    · simp [Subscriptions.mem_removeSubscriber, hpair]

/-- `seckill.lua`, and the empty callback after it. -/
theorem accurate_purchase {call : SeckillCall} (hs : ∀ v u, Accurate v u s)
    (hstep : step s (.purchase call) = some t) :
    (∀ v u, Accurate v u t) ↔ Holds s (.purchase call) := by
  have hstore : t.store = s.store := by
    cases hstep
    exact ite_self _
  have hredis : t.redis = (seckillLua call s.redis).2 := by
    cases hstep
    rfl
  obtain ⟨hrefused, hsame⟩ | ⟨hzero, n, -, -, hfirst, -, hreserve⟩ := seckillLua_cases call s.redis
  · refine iff_of_true (fun v u => ?_) fun h => absurd h hrefused
    refine (accurate_congr (s := s) (by rw [hstore]) (by rw [hredis, hsame]) ?_).mpr (hs v u)
    rw [hstore]
  · have hpurchased : ∀ v u, u ∈ t.redis.purchased v ↔
        v = call.voucherId ∧ u = call.userId ∨ u ∈ s.redis.purchased v := by
      intro v u
      rw [hredis, hreserve]
      by_cases hv : v = call.voucherId
      · subst hv
        simp [Redis.reserve]
      · simp [Redis.reserve, hv]
    have hbuyer : Accurate call.voucherId call.userId t ↔
        s.store.status call.voucherId call.userId = none := by
      refine accurate_of_changed (hs _ _) (by rw [hstore]) ?_
      have hnow := (hpurchased call.voucherId call.userId).mpr (Or.inl ⟨rfl, rfl⟩)
      rw [computedStatus, if_pos hnow, computedStatus, if_neg hfirst]
      split <;> simp
    refine ⟨fun h _ => hbuyer.mp (h _ _), fun h v u => ?_⟩
    by_cases hpair : v = call.voucherId ∧ u = call.userId
    · obtain ⟨rfl, rfl⟩ := hpair
      exact hbuyer.mpr (h hzero)
    · refine (accurate_congr (s := s) (by rw [hstore]) ?_ (by rw [hstore])).mpr (hs v u)
      rw [hpurchased, or_iff_right hpair]

/-- A committed cancellation, with the empty callback. -/
theorem accurate_cancel {order : VoucherOrder} {db : Db} (hs : ∀ v u, Accurate v u s)
    (hstep : step s (.cancel order db) = some t) :
    (∀ v u, Accurate v u t) ↔ Holds s (.cancel order db) := by
  obtain ⟨hstore, hredis, hpos⟩ : t.store = s.store ∧
      t.redis = (cancelLua order.voucherId order.userId s.redis).2 ∧
      0 ≤ (cancelLua order.voucherId order.userId s.redis).1 := by
    simp only [step] at hstep
    split at hstep
    · rename_i hcommits
      cases hstep
      exact ⟨rfl, rfl, hcommits.2⟩
    · cases hstep
  obtain ⟨-, hnostock⟩ | ⟨n, -, -, hcancel⟩ :=
    cancelLua_cases order.voucherId order.userId s.redis
  · rw [hnostock] at hpos
    exact absurd (show (0 : ℤ) ≤ -1 from hpos) (by decide)
  have hpurchased : ∀ v u, u ∈ t.redis.purchased v ↔
      ¬ (v = order.voucherId ∧ u = order.userId) ∧ u ∈ s.redis.purchased v := by
    intro v u
    rw [hredis, hcancel]
    by_cases hv : v = order.voucherId
    · subst hv
      simp
    · simp [hv]
  refine ⟨fun h hmem => ?_, fun h v u => ?_⟩
  · refine (accurate_of_changed (hs _ _) (by rw [hstore]) ?_).mp (h order.voucherId order.userId)
    have hnow : order.userId ∉ t.redis.purchased order.voucherId :=
      fun hin => ((hpurchased _ _).mp hin).1 ⟨rfl, rfl⟩
    rw [computedStatus, if_neg hnow, computedStatus, if_pos hmem]
    split <;> simp
  · by_cases hpair : v = order.voucherId ∧ u = order.userId ∧ u ∈ s.redis.purchased v
    · obtain ⟨rfl, rfl, hmem⟩ := hpair
      exact accurate_of_none (by rw [hstore, h hmem])
    · refine (accurate_congr (s := s) (by rw [hstore]) ?_ (by rw [hstore])).mpr (hs v u)
      rw [hpurchased]
      tauto

/-- **The step lemma**: a step keeps every status accurate exactly if it meets the condition. -/
theorem accurate_step {a : Action} (hs : ∀ v u, Accurate v u s) (hstep : step s a = some t) :
    (∀ v u, Accurate v u t) ↔ Holds s a := by
  cases a with
  | subscribe v u source now =>
    exact iff_of_true (fun v' u' => accurate_subscribe (hs v' u') hstep) trivial
  | unsubscribe v u source now =>
    exact iff_of_true (fun v' u' => accurate_unsubscribe (hs v' u') hstep) trivial
  | purchase call => exact accurate_purchase hs hstep
  | cancel order db => exact accurate_cancel hs hstep
  | getSubscribeStatus v u =>
    cases hstep
    exact iff_of_true hs trivial

end Step

/-- **The statuses agree with the facts.** In every state a run reaches, `getSubscribeStatus` gives
every voucher and user the status the order set and the subscriber set give, exactly if the steps of
the run all meet the condition. -/
theorem status_accurate_iff {redis : Redis} {t : State} {actions : List Action}
    (hrun : run step (.init redis) actions = some t) :
    Along step Holds (.init redis) actions ↔ ∀ before s, before <+: actions →
      run step (.init redis) before = some s → ∀ v u, Accurate v u s :=
  along_iff_invariant (J := fun _ => True) (fun _ _ _ _ _ _ => trivial)
    (fun _ _ _ _ hs hstep => accurate_step hs hstep) trivial
    (fun _ _ => accurate_of_none rfl) hrun

/-! ## Runs -/

/-- The activity 1 is open until 100 and has five in stock. -/
def openRedis : Redis :=
  { Redis.empty with
    stock := fun v => if v = 1 then some 5 else none
    activity := fun v => if v = 1 then ⟨some 0, some 100, some 1⟩ else ⟨none, none, none⟩ }

/-- A paid order of the user for the activity 1. -/
def paidOrder (u : UserId) : VoucherOrder := ⟨5, u, 1, .paid, 0⟩

/-- The database with this order. -/
def paidDb (u : UserId) : Db :=
  { Db.empty with
    stock := fun v => if v = 1 then some 4 else none
    orders := ⟨[paidOrder u], List.pairwise_singleton _ _⟩ }

/-- User `u` buys voucher 1. -/
def buying (u : UserId) : Action := .purchase ⟨1, u, 5, 10, [], false⟩

/-- User `u` subscribes to voucher 1. -/
def subscribing (u : UserId) : Action := .subscribe 1 u ⟨some 60, none, 0, 0⟩ 10

/-- One user buys, cancels and then subscribes; another subscribes, unsubscribes and then buys. -/
def factsFirst : List Action :=
  [buying 7, .getSubscribeStatus 1 7, .cancel (paidOrder 7) (paidDb 7), subscribing 7,
    subscribing 8, .unsubscribe 1 8 ⟨some 60, none, 0, 0⟩ 11, buying 8]

theorem status_accurate_iff_factsFirst :
    ∃ t, run step (.init openRedis) factsFirst = some t ∧
      ∀ before s, before <+: factsFirst → run step (.init openRedis) before = some s →
        ∀ v u, Accurate v u s := by
  obtain ⟨t, hrun⟩ := Option.isSome_iff_exists.mp
    (show (run step (State.init openRedis) factsFirst).isSome = true by decide +kernel)
  exact ⟨t, hrun, (status_accurate_iff hrun).mp (by decide +kernel)⟩

/-- A subscriber buys. -/
def subscribedThenBought : List Action := [subscribing 7, buying 7]

/-- A buyer subscribes and cancels. -/
def boughtThenCancelled : List Action :=
  [buying 7, subscribing 7, .cancel (paidOrder 7) (paidDb 7)]

theorem stale_status :
    (¬ ∀ (redis : Redis) (actions : List Action) (t : State),
      run step (.init redis) actions = some t → ∀ v u, Accurate v u t) ∧
    (∃ t, run step (.init openRedis) subscribedThenBought = some t ∧ 7 ∈ t.redis.purchased 1 ∧
      getSubscribeStatus t.store t.redis.purchased 1 7 =
        VoucherSubscribeStatus.subscribed.getCode) ∧
    ∃ t, run step (.init openRedis) boughtThenCancelled = some t ∧ 7 ∉ t.redis.purchased 1 ∧
      getSubscribeStatus t.store t.redis.purchased 1 7 =
        VoucherSubscribeStatus.issued.getCode := by
  obtain ⟨t, hrun, hend⟩ := Option.map_eq_some_iff.mp
    (show (run step (State.init openRedis) subscribedThenBought).map (fun t =>
      decide (7 ∈ t.redis.purchased 1 ∧ getSubscribeStatus t.store t.redis.purchased 1 7 =
        VoucherSubscribeStatus.subscribed.getCode ∧ ¬ Accurate 1 7 t)) = some true
      by decide +kernel)
  obtain ⟨hbuyer, hstatus, hnot⟩ := of_decide_eq_true hend
  obtain ⟨w, hcancelled, hend⟩ := Option.map_eq_some_iff.mp
    (show (run step (State.init openRedis) boughtThenCancelled).map (fun t =>
      decide (7 ∉ t.redis.purchased 1 ∧ getSubscribeStatus t.store t.redis.purchased 1 7 =
        VoucherSubscribeStatus.issued.getCode)) = some true by decide +kernel)
  exact ⟨fun h => hnot (h openRedis subscribedThenBought t hrun 1 7), ⟨t, hrun, hbuyer, hstatus⟩,
    ⟨w, hcancelled, of_decide_eq_true hend⟩⟩

end Hmdp.SubscriptionStatus
