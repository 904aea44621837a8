import Hmdp.Lib.Machine
import Hmdp.Model.Subscription
import Mathlib.Data.Fintype.Basic

/-!
# The subscription queue holds the subscribers

Any number of clients call `subscribe` and `unsubscribe` beside each other, one Redis command at a
time. An exception may end a call after any command; a retry, which starts over, is then owed.

A `subscribe` writes the queue only if its `SADD` has added the user, so the last word on a user is
with the call that writes the queue last. While somebody is still to write it, nothing is said; a
pair of voucher and user is settled (`Settled`) when its set and queue agree otherwise.

* **`settled_step`**: a step keeps all pairs settled exactly if it meets the condition `Holds`.
* **`queue_agrees`**: with no call in flight and no retry owed, the queue has exactly the members of
  the set and `listSubscriberUserIds` lists them all, in every run whose steps meet it.
-/

namespace Hmdp.Subscription

open Hmdp.Lib Hmdp.Model

/-! ## The calls -/

/-- A request, as it arrives. -/
inductive Request where
  | subscribe (v : VoucherId) (u : UserId)
  | unsubscribe (v : VoucherId) (u : UserId)
  deriving DecidableEq

/-- The call it begins. -/
def Request.begin : Request → SubscriptionCall
  | .subscribe v u => .subscribe v u .resolveTtl
  | .unsubscribe v u => .unsubscribe v u .remove

/-- What the client asked for. -/
def request : SubscriptionCall → Request
  | .subscribe v u _ => .subscribe v u
  | .unsubscribe v u _ => .unsubscribe v u

/-- The keys and the calls under way. -/
structure State (Client : Type) where
  store : Subscriptions
  /-- `seckill:order:<v>`, which purchases and cancellations change -/
  orders : VoucherId → Finset UserId
  calls : Client → Option SubscriptionCall
  /-- aborted and not yet retried -/
  owed : List Request

/-- The steps: a call starts, is tried again, goes on or is aborted, and orders change. -/
inductive Action (Client : Type) where
  | start (c : Client) (r : Request)
  | retry (c : Client) (r : Request)
  | next (c : Client) (source : TtlSource) (now : ℤ)
  | abort (c : Client)
  | setOrders (orders : VoucherId → Finset UserId)

variable {Client : Type} [DecidableEq Client]

/-- Nobody has subscribed. -/
def State.init : State Client := ⟨.empty, fun _ => ∅, fun _ => none, []⟩

/-- One step; `none` where the client is not where the action needs it. -/
def step (s : State Client) : Action Client → Option (State Client)
  | .start c r =>
    if (s.calls c).isNone then some { s with calls := Function.update s.calls c (some r.begin) }
    else none
  | .retry c r =>
    if (s.calls c).isNone ∧ r ∈ s.owed then
      some { s with calls := Function.update s.calls c (some r.begin), owed := s.owed.erase r }
    else none
  | .next c source now =>
    (s.calls c).bind fun call =>
      (call.next s.store s.orders source now).map fun r =>
        { s with store := r.1, calls := Function.update s.calls c r.2 }
  | .abort c =>
    (s.calls c).map fun call =>
      { s with calls := Function.update s.calls c none, owed := request call :: s.owed }
  | .setOrders orders => some { s with orders }

/-! ## Pairs -/

/-- The user is in the queue exactly if he is in the set. -/
def Agrees (v : VoucherId) (u : UserId) (store : Subscriptions) : Prop :=
  u.toText ∈ (store.queue v).members ↔ u.toText ∈ store.subscribers v

instance (v : VoucherId) (u : UserId) (store : Subscriptions) : Decidable (Agrees v u store) := by
  unfold Agrees
  infer_instance

/-- The call has yet to write the pair's queue. -/
def pending (v : VoucherId) (u : UserId) : Option SubscriptionCall → Bool
  | some (.subscribe v' u' .zadd) => decide (v' = v ∧ u' = u)
  | some (.unsubscribe v' u' .remove) => decide (v' = v ∧ u' = u)
  | some (.unsubscribe v' u' .zrem) => decide (v' = v ∧ u' = u)
  | _ => false

/-- Set and queue agree once nobody is to write the queue. -/
def Settled (v : VoucherId) (u : UserId) (s : State Client) : Prop :=
  (∀ c, pending v u (s.calls c) = false) → .unsubscribe v u ∉ s.owed → Agrees v u s.store

/-- Nobody else is to write the queue. -/
def Last (v : VoucherId) (u : UserId) (s : State Client) (c : Client) : Prop :=
  (∀ other, other ≠ c → pending v u (s.calls other) = false) ∧ .unsubscribe v u ∉ s.owed

/-- **The condition on a step.** The last call to write the queue finds the user in the set if it
adds him and not there if it removes him; and an exception comes between `SADD` and `ZADD` only
where the queue has the user already. -/
def Holds (s : State Client) : Action Client → Prop
  | .next c _ _ =>
    match s.calls c with
    | some (.subscribe v u .zadd) => Last v u s c → u.toText ∈ s.store.subscribers v
    | some (.unsubscribe v u .zrem) => Last v u s c → u.toText ∉ s.store.subscribers v
    | _ => True
  | .abort c =>
    match s.calls c with
    | some (.subscribe v u .zadd) => Last v u s c → Agrees v u s.store
    | _ => True
  | _ => True

section Store

variable {v v' : VoucherId} {u u' : UserId} {store store' : Subscriptions}

/-- The set of another pair. -/
theorem agrees_setSubscribers {members : Finset Text}
    (h : v' = v → (u.toText ∈ members ↔ u.toText ∈ store.subscribers v)) :
    Agrees v u (store.setSubscribers v' members) ↔ Agrees v u store := by
  by_cases hv : v = v'
  · subst hv
    simp only [Agrees, Subscriptions.setSubscribers, Function.update_self, h rfl]
  · simp only [Agrees, Subscriptions.setSubscribers, Function.update_of_ne hv]

/-- The queue of another pair. -/
theorem agrees_setQueue {members : ZSet Text}
    (h : v' = v → (u.toText ∈ members.members ↔ u.toText ∈ (store.queue v).members)) :
    Agrees v u (store.setQueue v' members) ↔ Agrees v u store := by
  by_cases hv : v = v'
  · subst hv
    simp only [Agrees, Subscriptions.setQueue, Function.update_self, h rfl]
  · simp only [Agrees, Subscriptions.setQueue, Function.update_of_ne hv]

theorem toText_ne (h : ¬ (v' = v ∧ u' = u)) (hv : v' = v) : u.toText ≠ u'.toText :=
  fun htext => h ⟨hv, (Long.toText_injective htext).symm⟩

/-- A command of `subscribe` that neither leaves nor reaches the `ZADD` of the pair. -/
theorem agrees_subscribe {orders : Finset UserId} {source : TtlSource} {now : ℤ}
    {phase phase' : SubscribePhase}
    (h : store.subscribe orders source now v' u' phase = some (store', phase'))
    (hbefore : pending v u (some (.subscribe v' u' phase)) = false)
    (hafter : pending v u (some (.subscribe v' u' phase')) = false) :
    Agrees v u store' ↔ Agrees v u store := by
  cases phase with
  | add =>
    simp only [Subscriptions.subscribe] at h
    split at h
    · cases h
      rfl
    · cases h
      have hne := of_decide_eq_false hafter
      refine agrees_setSubscribers fun hv => ?_
      rw [Finset.mem_insert, or_iff_right (toText_ne hne hv), hv]
  | zadd =>
    cases h
    have hne := of_decide_eq_false hbefore
    refine agrees_setQueue fun hv => ?_
    rw [ZSet.mem_zadd, or_iff_right (toText_ne hne hv), hv]
  | resolveTtl =>
    simp only [Subscriptions.subscribe] at h
    split at h <;> cases h
    rfl
  | returning => cases h
  | _ =>
    cases h
    rfl

/-- The same for `unsubscribe`. -/
theorem agrees_unsubscribe {orders : Finset UserId} {phase phase' : UnsubscribePhase}
    (h : store.unsubscribe orders v' u' phase = some (store', phase'))
    (hbefore : pending v u (some (.unsubscribe v' u' phase)) = false) :
    Agrees v u store' ↔ Agrees v u store := by
  cases phase with
  | remove =>
    cases h
    have hne := of_decide_eq_false hbefore
    refine agrees_setSubscribers fun hv => ?_
    rw [Finset.mem_erase, and_iff_right (toText_ne hne hv), hv]
  | zrem =>
    cases h
    have hne := of_decide_eq_false hbefore
    refine agrees_setQueue fun hv => ?_
    rw [ZSet.mem_zrem, List.mem_singleton, and_iff_left (toText_ne hne hv), hv]
  | returning => cases h
  | _ =>
    cases h
    rfl

/-- Any command that is not the last word on the pair. -/
theorem agrees_next {orders : VoucherId → Finset UserId} {source : TtlSource} {now : ℤ}
    {call : SubscriptionCall} {call' : Option SubscriptionCall}
    (h : call.next store orders source now = some (store', call'))
    (hbefore : pending v u (some call) = false) (hafter : pending v u call' = false) :
    Agrees v u store' ↔ Agrees v u store := by
  rcases call with ⟨v', u', phase⟩ | ⟨v', u', phase⟩
  · obtain ⟨-, rfl, -⟩ | ⟨phase', hq, rfl⟩ := SubscriptionCall.next_subscribe h
    · rfl
    · exact agrees_subscribe hq hbefore hafter
  · obtain ⟨-, rfl, -⟩ | ⟨phase', hq, rfl⟩ := SubscriptionCall.next_unsubscribe h
    · rfl
    · exact agrees_unsubscribe hq hbefore

/-- The `ZADD` of the pair. -/
theorem agrees_zadd (now : ℤ) :
    Agrees v u (store.setQueue v ((store.queue v).zadd now u.toText)) ↔
      u.toText ∈ store.subscribers v := by
  simp [Agrees, Subscriptions.setQueue]

/-- The `ZREM` of the pair. -/
theorem agrees_zrem :
    Agrees v u (store.setQueue v ((store.queue v).zrem [u.toText]).2) ↔
      u.toText ∉ store.subscribers v := by
  simp [Agrees, Subscriptions.setQueue]

end Store

section Step

variable {v : VoucherId} {u : UserId} {s t : State Client} {c : Client}
  {call' : Option SubscriptionCall}

/-- Nobody is to write the queue once one call has moved on. -/
theorem pending_update :
    (∀ other, pending v u (Function.update s.calls c call' other) = false) ↔
      pending v u call' = false ∧ ∀ other, other ≠ c → pending v u (s.calls other) = false :=
  Function.forall_update_iff s.calls fun _ call => pending v u call = false

/-- A pair whose call has moved past the queue: what is left is what the others say. -/
theorem settled_iff_last {store' : Subscriptions} (hafter : pending v u call' = false) :
    Settled v u { s with store := store', calls := Function.update s.calls c call' } ↔
      (Last v u s c → Agrees v u store') := by
  unfold Settled Last
  rw [pending_update, and_iff_right hafter, and_imp]

theorem settled_zadd (now : ℤ) :
    Settled v u { s with
        store := s.store.setQueue v ((s.store.queue v).zadd now u.toText)
        calls := Function.update s.calls c (some (.subscribe v u .expireSubscribers)) } ↔
      (Last v u s c → u.toText ∈ s.store.subscribers v) := by
  rw [settled_iff_last rfl, agrees_zadd]

theorem settled_zrem :
    Settled v u { s with
        store := s.store.setQueue v ((s.store.queue v).zrem [u.toText]).2
        calls := Function.update s.calls c (some (.unsubscribe v u .isMember)) } ↔
      (Last v u s c → u.toText ∉ s.store.subscribers v) := by
  rw [settled_iff_last rfl, agrees_zrem]

/-- A call begins. -/
theorem settled_begin {r : Request} {owed : List Request} (hs : Settled v u s)
    (hfree : s.calls c = none) (howed : .unsubscribe v u ∈ s.owed →
      .unsubscribe v u ∈ owed ∨ r = .unsubscribe v u) :
    Settled v u { s with calls := Function.update s.calls c (some r.begin), owed } := by
  intro hall hnot
  obtain ⟨hself, hothers⟩ := pending_update.mp hall
  refine hs (fun other => ?_) fun hmem => ?_
  · by_cases hother : other = c
    · rw [hother, hfree]
      rfl
    · exact hothers other hother
  · obtain hmem | rfl := howed hmem
    · exact hnot hmem
    · exact absurd hself (by simp [Request.begin, pending])

/-- A step of a call that has not the last word on the pair. -/
theorem settled_next {call : SubscriptionCall} {source : TtlSource} {now : ℤ}
    {store' : Subscriptions} (hs : Settled v u s) (hcall : s.calls c = some call)
    (hnext : call.next s.store s.orders source now = some (store', call'))
    (hbefore : pending v u (some call) = false) :
    Settled v u { s with store := store', calls := Function.update s.calls c call' } := by
  intro hall hnot
  obtain ⟨hafter, hothers⟩ := pending_update.mp hall
  refine (agrees_next hnext hbefore hafter).mpr (hs (fun other => ?_) hnot)
  by_cases hother : other = c
  · rw [hother, hcall]
    exact hbefore
  · exact hothers other hother

/-- An exception ends the call. -/
theorem settled_abort {call : SubscriptionCall} (hs : Settled v u s) (hcall : s.calls c = some call)
    (hzadd : call ≠ .subscribe v u .zadd) :
    Settled v u { s with
      calls := Function.update s.calls c none, owed := request call :: s.owed } := by
  intro hall hnot
  obtain ⟨hrequest, howed⟩ := not_or.mp (mt List.mem_cons.mpr hnot)
  refine hs (fun other => ?_) howed
  by_cases hother : other = c
  · rw [hother, hcall]
    by_contra hpending
    rcases call with ⟨v', u', phase⟩ | ⟨v', u', phase⟩
    · cases phase <;> simp [pending] at hpending
      exact hzadd (by rw [hpending.1, hpending.2])
    · cases phase <;> simp [pending] at hpending <;>
        exact hrequest (by rw [hpending.1, hpending.2]; rfl)
  · exact (pending_update.mp hall).2 other hother

/-- A command of the call that may have the last word on a pair. -/
theorem settled_call {call : SubscriptionCall} {source : TtlSource} {now : ℤ}
    {store' : Subscriptions} (hs : ∀ v u, Settled v u s) (hcall : s.calls c = some call)
    (hnext : call.next s.store s.orders source now = some (store', call')) :
    (∀ v u, Settled v u
      { s with store := store', calls := Function.update s.calls c call' }) ↔
      Holds s (.next c source now) := by
  have hother : ∀ v u, pending v u (some call) = false → Settled v u
      { s with store := store', calls := Function.update s.calls c call' } :=
    fun v u => settled_next (hs v u) hcall hnext
  simp only [Holds, hcall]
  split
  · rename_i v u heq
    cases heq
    cases hnext
    refine ⟨fun h => (settled_zadd now).mp (h v u), fun h v' u' => ?_⟩
    by_cases hpair : v = v' ∧ u = u'
    · obtain ⟨rfl, rfl⟩ := hpair
      exact (settled_zadd now).mpr h
    · exact hother v' u' (decide_eq_false hpair)
  · rename_i v u heq
    cases heq
    cases hnext
    refine ⟨fun h => settled_zrem.mp (h v u), fun h v' u' => ?_⟩
    by_cases hpair : v = v' ∧ u = u'
    · obtain ⟨rfl, rfl⟩ := hpair
      exact settled_zrem.mpr h
    · exact hother v' u' (decide_eq_false hpair)
  · rename_i hzadd hzrem
    refine iff_of_true (fun v u => ?_) trivial
    by_cases hpending : pending v u (some call) = false
    · exact hother v u hpending
    · -- only the `SREM` is left, and the `ZREM` is still to come
      rcases call with ⟨v', u', phase⟩ | ⟨v', u', phase⟩
      · cases phase <;> simp [pending] at hpending
        exact absurd rfl (hzadd v' u')
      · cases phase <;> simp [pending] at hpending
        · cases hnext
          intro hall
          have hself := (pending_update.mp hall).1
          exact absurd hpending (of_decide_eq_false hself)
        · exact absurd rfl (hzrem v' u')

/-- **The step lemma**: a step keeps every pair settled exactly if it meets the condition. -/
theorem settled_step {a : Action Client} (hs : ∀ v u, Settled v u s) (hstep : step s a = some t) :
    (∀ v u, Settled v u t) ↔ Holds s a := by
  cases a with
  | start c r =>
    simp only [step] at hstep
    split at hstep
    · rename_i hfree
      cases hstep
      exact iff_of_true (fun v u => settled_begin (hs v u) (Option.isNone_iff_eq_none.mp hfree)
        Or.inl) trivial
    · cases hstep
  | retry c r =>
    simp only [step] at hstep
    split at hstep
    · rename_i hfree
      cases hstep
      refine iff_of_true (fun v u => settled_begin (hs v u)
        (Option.isNone_iff_eq_none.mp hfree.1) fun hmem => ?_) trivial
      by_cases hr : r = .unsubscribe v u
      · exact Or.inr hr
      · exact Or.inl ((List.mem_erase_of_ne (Ne.symm hr)).mpr hmem)
    · cases hstep
  | next c source now =>
    obtain ⟨call, hcall, hstep⟩ := Option.bind_eq_some_iff.mp hstep
    obtain ⟨⟨store', call'⟩, hnext, hstep⟩ := Option.map_eq_some_iff.mp hstep
    cases hstep
    exact settled_call hs hcall hnext
  | abort c =>
    obtain ⟨call, hcall, hstep⟩ := Option.map_eq_some_iff.mp hstep
    cases hstep
    simp only [Holds, hcall]
    split
    · rename_i v u heq
      cases heq
      have hlast : Settled v u { s with
          calls := Function.update s.calls c none, owed := .subscribe v u :: s.owed } ↔
          (Last v u s c → Agrees v u s.store) := by
        rw [← settled_iff_last (show pending v u none = false from rfl)]
        simp [Settled]
      refine ⟨fun h => hlast.mp (h v u), fun h v' u' => ?_⟩
      by_cases hpair : v = v' ∧ u = u'
      · obtain ⟨rfl, rfl⟩ := hpair
        exact hlast.mpr h
      · refine settled_abort (hs v' u') hcall fun heq => ?_
        cases heq
        exact hpair ⟨rfl, rfl⟩
    · rename_i hzadd
      refine iff_of_true (fun v u => settled_abort (hs v u) hcall fun heq => ?_) trivial
      exact hzadd v u (by rw [heq])
  | setOrders orders =>
    cases hstep
    exact iff_of_true hs trivial

end Step

/-! ## Members are ids -/

/-- Whoever is in a set or a queue is a user. -/
def Ids (store : Subscriptions) : Prop :=
  ∀ v x, x ∈ (store.queue v).members ∨ x ∈ store.subscribers v → ∃ u : UserId, x = u.toText

section Ids

variable {store store' : Subscriptions} {v : VoucherId}

theorem ids_setSubscribers {members : Finset Text} (hs : Ids store)
    (h : ∀ x ∈ members, x ∈ store.subscribers v ∨ ∃ u : UserId, x = u.toText) :
    Ids (store.setSubscribers v members) := by
  intro v' x hx
  by_cases hv : v' = v
  · subst hv
    simp only [Subscriptions.setSubscribers, Function.update_self] at hx
    obtain hx | hx := hx
    · exact hs v' x (Or.inl hx)
    · exact (h x hx).elim (fun hmem => hs v' x (Or.inr hmem)) id
  · simp only [Subscriptions.setSubscribers, Function.update_of_ne hv] at hx
    exact hs v' x hx

theorem ids_setQueue {members : ZSet Text} (hs : Ids store)
    (h : ∀ x ∈ members.members, x ∈ (store.queue v).members ∨ ∃ u : UserId, x = u.toText) :
    Ids (store.setQueue v members) := by
  intro v' x hx
  by_cases hv : v' = v
  · subst hv
    simp only [Subscriptions.setQueue, Function.update_self] at hx
    obtain hx | hx := hx
    · exact (h x hx).elim (fun hmem => hs v' x (Or.inl hmem)) id
    · exact hs v' x (Or.inr hx)
  · simp only [Subscriptions.setQueue, Function.update_of_ne hv] at hx
    exact hs v' x hx

theorem ids_next {orders : VoucherId → Finset UserId} {source : TtlSource} {now : ℤ}
    {call : SubscriptionCall} {call' : Option SubscriptionCall} (hs : Ids store)
    (h : call.next store orders source now = some (store', call')) : Ids store' := by
  rcases call with ⟨v, u, phase⟩ | ⟨v, u, phase⟩
  · obtain ⟨-, rfl, -⟩ | ⟨phase', hq, -⟩ := SubscriptionCall.next_subscribe h
    · exact hs
    cases phase with
    | resolveTtl =>
      simp only [Subscriptions.subscribe] at hq
      split at hq <;> cases hq
      exact hs
    | add =>
      simp only [Subscriptions.subscribe] at hq
      split at hq <;> cases hq
      · exact hs
      · exact ids_setSubscribers hs fun x hx =>
          (Finset.mem_insert.mp hx).elim (fun heq => Or.inr ⟨u, heq⟩) Or.inl
    | zadd =>
      cases hq
      exact ids_setQueue hs fun x hx =>
        (ZSet.mem_zadd.mp hx).elim (fun heq => Or.inr ⟨u, heq⟩) Or.inl
    | returning => cases hq
    | _ =>
      cases hq
      exact hs
  · obtain ⟨-, rfl, -⟩ | ⟨phase', hq, -⟩ := SubscriptionCall.next_unsubscribe h
    · exact hs
    cases phase with
    | remove =>
      cases hq
      exact ids_setSubscribers hs fun x hx => Or.inl (Finset.mem_of_mem_erase hx)
    | zrem =>
      cases hq
      exact ids_setQueue hs fun x hx => Or.inl (ZSet.mem_zrem.mp hx).1
    | returning => cases hq
    | _ =>
      cases hq
      exact hs

end Ids

theorem ids_step {s t : State Client} {a : Action Client} (hs : Ids s.store)
    (hstep : step s a = some t) : Ids t.store := by
  cases a with
  | start c r =>
    simp only [step] at hstep
    split at hstep <;> cases hstep
    exact hs
  | retry c r =>
    simp only [step] at hstep
    split at hstep <;> cases hstep
    exact hs
  | next c source now =>
    obtain ⟨call, -, hstep⟩ := Option.bind_eq_some_iff.mp hstep
    obtain ⟨⟨store', call'⟩, hnext, hstep⟩ := Option.map_eq_some_iff.mp hstep
    cases hstep
    exact ids_next hs hnext
  | abort c =>
    obtain ⟨call, -, hstep⟩ := Option.map_eq_some_iff.mp hstep
    cases hstep
    exact hs
  | setOrders orders =>
    cases hstep
    exact hs

/-! ## Whole runs -/

/-- **The queue holds the subscribers.** The steps of a run all meet the condition exactly if every
pair is settled in every state the run reaches; and then, with no call in flight and every aborted
call retried, set and queue have the same members and the subscribers are exactly those listed. -/
theorem queue_agrees {t : State Client} {actions : List (Action Client)}
    (hrun : run step .init actions = some t) :
    (Along step Holds .init actions ↔ ∀ before s, before <+: actions →
      run step .init before = some s → ∀ v u, Settled v u s) ∧
    (Along step Holds .init actions → (∀ c, t.calls c = none) → t.owed = [] →
      ∀ v, (∀ x, x ∈ (t.store.queue v).members ↔ x ∈ t.store.subscribers v) ∧
        ∀ limit : Int32, ((t.store.queue v).members.length : ℤ) ≤ limit.toInt →
          ∀ u, u ∈ (listSubscriberUserIds t.store (some v) limit).elements ↔
            u.toText ∈ t.store.subscribers v) := by
  have hiff : Along step Holds .init actions ↔ ∀ before s, before <+: actions →
      run step .init before = some s → ∀ v u, Settled v u s :=
    along_iff_invariant (J := fun _ => True) (fun _ _ _ _ _ _ => trivial)
      (fun _ _ _ _ hs hstep => settled_step hs hstep) trivial
      (fun v u _ _ => by simp [Agrees, State.init, Subscriptions.empty, ZSet.members, ZSet.empty])
      hrun
  refine ⟨hiff, fun hholds hidle howed v => ?_⟩
  have hids : Ids t.store := run_invariant' (I := fun s : State Client => Ids s.store)
    (fun _ _ _ hs hstep => ids_step hs hstep)
    (fun v x hx => by
      simp [State.init, Subscriptions.empty, ZSet.members, ZSet.empty] at hx) hrun
  have hagrees : ∀ u : UserId, u.toText ∈ (t.store.queue v).members ↔
      u.toText ∈ t.store.subscribers v := fun u =>
    hiff.mp hholds actions t List.prefix_rfl hrun v u (fun c => by rw [hidle c]; rfl)
      (by simp [howed])
  refine ⟨fun x => ⟨fun hx => ?_, fun hx => ?_⟩, fun limit hlimit u => ?_⟩
  · obtain ⟨u, rfl⟩ := hids v x (Or.inl hx)
    exact (hagrees u).mp hx
  · obtain ⟨u, rfl⟩ := hids v x (Or.inr hx)
    exact (hagrees u).mpr hx
  · rw [mem_listSubscriberUserIds (fun x hx => hids v x (Or.inl hx)) hlimit, hagrees u]

/-! ## Runs -/

instance (v : VoucherId) (u : UserId) (s : State Bool) (c : Bool) : Decidable (Last v u s c) := by
  unfold Last
  infer_instance

instance (s : State Bool) (a : Action Bool) : Decidable (Holds s a) := by
  unfold Holds
  split
  · split <;> infer_instance
  · split <;> infer_instance
  · infer_instance

/-- An activity whose metadata have a minute left. -/
def open60 : TtlSource := ⟨some 60, none, 0, 0⟩

/-- A call from its start to its return. -/
def wholeCall (c : Bool) (r : Request) (commands : ℕ) : List (Action Bool) :=
  .start c r :: List.replicate commands (.next c open60 10)

/-- Two users subscribe; the second unsubscribes, an exception comes after the `SREM`, and the retry
succeeds. -/
def unsubscribedTwice : List (Action Bool) :=
  wholeCall true (.subscribe 1 7) 10 ++ wholeCall false (.subscribe 1 8) 10 ++
    [.start false (.unsubscribe 1 8), .next false open60 20, .abort false,
      .retry false (.unsubscribe 1 8)] ++ List.replicate 5 (.next false open60 21)

theorem queue_agrees_unsubscribedTwice :
    ∃ t : State Bool, run step .init unsubscribedTwice = some t ∧
      (∀ before s, before <+: unsubscribedTwice → run step .init before = some s →
        ∀ v u, Settled v u s) ∧
      7 ∈ (listSubscriberUserIds t.store (some 1) 100).elements ∧
      8 ∉ (listSubscriberUserIds t.store (some 1) 100).elements := by
  obtain ⟨t, hrun, hend⟩ := Option.map_eq_some_iff.mp
    (show (run step State.init unsubscribedTwice).map (fun t =>
      decide ((∀ c, t.calls c = none) ∧ t.owed = [] ∧ (t.store.queue 1).members.length = 1 ∧
        Long.toText 7 ∈ t.store.subscribers 1 ∧ Long.toText 8 ∉ t.store.subscribers 1)) =
        some true by decide +kernel)
  obtain ⟨hidle, howed, hlength, h7, h8⟩ := of_decide_eq_true hend
  have hholds : Along step Holds State.init unsubscribedTwice := by decide +kernel
  obtain ⟨hiff, hquiet⟩ := queue_agrees hrun
  have hlimit : ((t.store.queue 1).members.length : ℤ) ≤ Int32.toInt 100 := by
    rw [hlength]
    decide
  have hlist := (hquiet hholds hidle howed 1).2 100 hlimit
  exact ⟨t, hrun, hiff.mp hholds, (hlist 7).mpr h7, fun h => h8 ((hlist 8).mp h)⟩

/-- An exception comes between `SADD` and `ZADD`, and the retry finds the user in the set. -/
def lostQueueEntry : List (Action Bool) :=
  .start true (.subscribe 1 7) :: List.replicate 3 (.next true open60 10) ++
    [.abort true, .retry true (.subscribe 1 7)] ++ List.replicate 9 (.next true open60 11)

/-- An `unsubscribe` runs between the `SADD` and the `ZADD` of a `subscribe`. -/
def unsubscribedBetween : List (Action Bool) :=
  .start true (.subscribe 1 7) :: List.replicate 3 (.next true open60 10) ++
    wholeCall false (.unsubscribe 1 7) 5 ++ List.replicate 7 (.next true open60 11)

theorem queue_disagrees :
    (¬ ∀ (actions : List (Action Bool)) (t : State Bool), run step .init actions = some t →
      (∀ c, t.calls c = none) → t.owed = [] →
        ∀ v x, x ∈ (t.store.queue v).members ↔ x ∈ t.store.subscribers v) ∧
    ¬ ∀ (actions : List (Action Bool)) (t : State Bool),
      (∀ c, Action.abort c ∉ actions) → run step .init actions = some t →
        (∀ c, t.calls c = none) →
          ∀ v x, x ∈ (t.store.queue v).members ↔ x ∈ t.store.subscribers v := by
  constructor
  · intro h
    obtain ⟨t, hrun, hend⟩ := Option.map_eq_some_iff.mp
      (show (run step State.init lostQueueEntry).map (fun t =>
        decide ((∀ c, t.calls c = none) ∧ t.owed = [] ∧ ¬ Agrees 1 7 t.store)) = some true
        by decide +kernel)
    obtain ⟨hidle, howed, hnot⟩ := of_decide_eq_true hend
    exact hnot (h lostQueueEntry t hrun hidle howed 1 _)
  · intro h
    obtain ⟨t, hrun, hend⟩ := Option.map_eq_some_iff.mp
      (show (run step State.init unsubscribedBetween).map (fun t =>
        decide ((∀ c, t.calls c = none) ∧ ¬ Agrees 1 7 t.store)) = some true by decide +kernel)
    obtain ⟨hidle, hnot⟩ := of_decide_eq_true hend
    refine hnot (h unsubscribedBetween t (fun c hmem => ?_) hrun hidle 1 _)
    simp [unsubscribedBetween, wholeCall] at hmem

end Hmdp.Subscription
