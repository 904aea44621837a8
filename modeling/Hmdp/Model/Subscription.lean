import Hmdp.Lib.LinkedSet
import Hmdp.Lib.SortedSet
import Hmdp.Model.Codec
import Hmdp.Model.Redis

/-!
# Subscriptions to a voucher

`SeckillSubscriptionServiceImpl`, one Redis command after the other. A subscriber is a member of the
set `seckill:subscribe:users:<v>` and of the sorted set `seckill:subscribe:queue:<v>`, and the hash
`seckill:subscribe:status:<v>` keeps a status for each user who has called.

* A code of the hash stands for its decimal text.
* Keys do not expire: an `EXPIRE` is a step that changes nothing. Of `resolveTtlSeconds` it matters
  that it may throw; `resolveTtlSecondsOrDefault` catches that.
-/

namespace Hmdp.Model

open Hmdp.Lib

/-- The subscription status of a user. -/
inductive VoucherSubscribeStatus where
  | unsubscribed
  | subscribed
  | issued
  deriving DecidableEq

/-- Its code, as the hash holds it. -/
def VoucherSubscribeStatus.getCode : VoucherSubscribeStatus → ℕ
  | .unsubscribed => 0
  | .subscribed => 1
  | .issued => 2

/-- The keys of the subscriptions. -/
structure Subscriptions where
  /-- `seckill:subscribe:users:<v>` -/
  subscribers : VoucherId → Finset Text
  /-- `seckill:subscribe:queue:<v>` -/
  queue : VoucherId → ZSet Text
  /-- `seckill:subscribe:status:<v>` -/
  status : VoucherId → UserId → Option ℕ

/-- Nobody has subscribed. -/
def Subscriptions.empty : Subscriptions := ⟨fun _ => ∅, fun _ => ZSet.empty, fun _ _ => none⟩

/-- The set of a voucher, replaced. -/
def Subscriptions.setSubscribers (s : Subscriptions) (v : VoucherId) (members : Finset Text) :
    Subscriptions :=
  { s with subscribers := Function.update s.subscribers v members }

/-- The queue of a voucher, replaced. -/
def Subscriptions.setQueue (s : Subscriptions) (v : VoucherId) (members : ZSet Text) :
    Subscriptions :=
  { s with queue := Function.update s.queue v members }

/-- `HSET` or `HDEL` of a user's status. -/
def Subscriptions.setStatus (s : Subscriptions) (v : VoucherId) (u : UserId) (code : Option ℕ) :
    Subscriptions :=
  { s with status := Function.update s.status v (Function.update (s.status v) u code) }

@[simp] theorem Subscriptions.queue_setSubscribers (s : Subscriptions) (v : VoucherId)
    (members : Finset Text) : (s.setSubscribers v members).queue = s.queue := rfl

/-- `SADD` and, for a new member, `ZADD`. -/
def Subscriptions.addSubscriber (s : Subscriptions) (now : ℤ) (v : VoucherId) (u : UserId) :
    Subscriptions :=
  if u.toText ∈ s.subscribers v then s
  else (s.setSubscribers v (insert u.toText (s.subscribers v))).setQueue v
    ((s.queue v).zadd now u.toText)

/-- `SREM` and `ZREM`. -/
def Subscriptions.removeSubscriber (s : Subscriptions) (v : VoucherId) (u : UserId) :
    Subscriptions :=
  (s.setSubscribers v ((s.subscribers v).erase u.toText)).setQueue v
    ((s.queue v).zrem [u.toText]).2

theorem Subscriptions.mem_addSubscriber {s : Subscriptions} {now : ℤ} {v v' : VoucherId}
    {u u' : UserId} : u'.toText ∈ (s.addSubscriber now v u).subscribers v' ↔
      v' = v ∧ u' = u ∨ u'.toText ∈ s.subscribers v' := by
  unfold addSubscriber
  split
  · rename_i hmem
    refine ⟨Or.inr, fun h => h.elim (fun heq => ?_) id⟩
    rw [heq.1, heq.2]
    exact hmem
  · by_cases hv : v' = v
    · subst hv
      simp only [setQueue, setSubscribers, Function.update_self, Finset.mem_insert, true_and]
      exact or_congr ⟨Long.toText_injective, congrArg _⟩ Iff.rfl
    · simp [setQueue, setSubscribers, hv]

theorem Subscriptions.mem_removeSubscriber {s : Subscriptions} {v v' : VoucherId}
    {u u' : UserId} : u'.toText ∈ (s.removeSubscriber v u).subscribers v' ↔
      ¬ (v' = v ∧ u' = u) ∧ u'.toText ∈ s.subscribers v' := by
  by_cases hv : v' = v
  · subst hv
    simp only [removeSubscriber, setQueue, setSubscribers, Function.update_self, Finset.mem_erase,
      true_and]
    exact and_congr (not_congr ⟨Long.toText_injective, congrArg _⟩) Iff.rfl
  · simp [removeSubscriber, setQueue, setSubscribers, hv]

@[simp] theorem Subscriptions.status_addSubscriber (s : Subscriptions) (now : ℤ) (v : VoucherId)
    (u : UserId) : (s.addSubscriber now v u).status = s.status := by
  unfold addSubscriber
  split <;> rfl

@[simp] theorem Subscriptions.status_removeSubscriber (s : Subscriptions) (v : VoucherId)
    (u : UserId) : (s.removeSubscriber v u).status = s.status := rfl

@[simp] theorem Subscriptions.subscribers_setStatus (s : Subscriptions) (v : VoucherId) (u : UserId)
    (code : Option ℕ) : (s.setStatus v u code).subscribers = s.subscribers := rfl

theorem Subscriptions.status_setStatus (s : Subscriptions) (v v' : VoucherId) (u u' : UserId)
    (code : Option ℕ) :
    (s.setStatus v u code).status v' u' = if v' = v ∧ u' = u then code else s.status v' u' := by
  by_cases hv : v' = v
  · subst hv
    by_cases hu : u' = u
    · subst hu
      simp [setStatus]
    · simp [setStatus, hu]
  · simp [setStatus, hv]

/-! ## `resolveTtlSeconds` -/

/-- What `resolveTtlSeconds` reads. -/
structure TtlSource where
  /-- the `TTL` of `seckill:meta:<v>` -/
  redisTtl : Option ℤ
  /-- the row's `end_time`, which may be NULL -/
  voucher : Option (Option Time)
  now : Time
  subscriptionGraceSeconds : Int32

/-- `resolveTtlSeconds`; the error is the text of the `BusinessException`. -/
def resolveTtlSeconds (source : TtlSource) : Except Text ℤ :=
  match source.redisTtl.filter (decide <| 0 < ·), source.voucher with
  | some redisTtl, _ => .ok redisTtl
  | none, some (some endTime) =>
    let seconds := endTime - source.now
    if seconds ≤ 0 then .error "秒杀活动已经结束".toList
    else .ok (max 1 (seconds + max 0 source.subscriptionGraceSeconds.toInt))
  | none, _ => .error "秒杀活动不存在".toList

/-! ## `subscribe` and `unsubscribe` -/

/-- Where a `subscribe` stands: the command that is next. -/
inductive SubscribePhase where
  | resolveTtl
  | isMember
  | add
  | zadd
  | expireSubscribers
  | expireQueue
  | expireStatus
  | putStatus (status : VoucherSubscribeStatus)
  | expireHash
  | returning
  deriving DecidableEq

/-- Where an `unsubscribe` stands. -/
inductive UnsubscribePhase where
  | remove
  | zrem
  | isMember
  | resolveTtl
  | putStatus
  | expireHash
  | deleteStatus
  | returning
  deriving DecidableEq

/-- A command of `subscribe`; `none` where it throws. -/
def Subscriptions.subscribe (s : Subscriptions) (orders : Finset UserId) (source : TtlSource)
    (now : ℤ) (v : VoucherId) (u : UserId) :
    SubscribePhase → Option (Subscriptions × SubscribePhase)
  | .resolveTtl =>
    match resolveTtlSeconds source with
    | .error _ => none
    | .ok _ => some (s, .isMember)
  | .isMember => some (s, if u ∈ orders then .putStatus .issued else .add)
  | .add =>
    if u.toText ∈ s.subscribers v then some (s, .expireSubscribers)
    else some (s.setSubscribers v (insert u.toText (s.subscribers v)), .zadd)
  | .zadd => some (s.setQueue v ((s.queue v).zadd now u.toText), .expireSubscribers)
  | .expireSubscribers => some (s, .expireQueue)
  | .expireQueue => some (s, .expireStatus)
  | .expireStatus => some (s, .putStatus .subscribed)
  | .putStatus status => some (s.setStatus v u (some status.getCode), .expireHash)
  | .expireHash => some (s, .returning)
  | .returning => none

/-- A command of `unsubscribe`. -/
def Subscriptions.unsubscribe (s : Subscriptions) (orders : Finset UserId) (v : VoucherId)
    (u : UserId) : UnsubscribePhase → Option (Subscriptions × UnsubscribePhase)
  | .remove => some (s.setSubscribers v ((s.subscribers v).erase u.toText), .zrem)
  | .zrem => some (s.setQueue v ((s.queue v).zrem [u.toText]).2, .isMember)
  | .isMember => some (s, if u ∈ orders then .resolveTtl else .deleteStatus)
  | .resolveTtl => some (s, .putStatus)
  | .putStatus => some (s.setStatus v u (some VoucherSubscribeStatus.issued.getCode), .expireHash)
  | .expireHash => some (s, .returning)
  | .deleteStatus => some (s.setStatus v u none, .returning)
  | .returning => none

/-- A call and where it stands. -/
inductive SubscriptionCall where
  | subscribe (v : VoucherId) (u : UserId) (phase : SubscribePhase)
  | unsubscribe (v : VoucherId) (u : UserId) (phase : UnsubscribePhase)
  deriving DecidableEq

/-- The next command, or the return; `orders` are the sets `seckill:order:<v>`. -/
def SubscriptionCall.next (s : Subscriptions) (orders : VoucherId → Finset UserId)
    (source : TtlSource) (now : ℤ) :
    SubscriptionCall → Option (Subscriptions × Option SubscriptionCall)
  | .subscribe _ _ .returning => some (s, none)
  | .subscribe v u phase =>
    (s.subscribe (orders v) source now v u phase).map fun r => (r.1, some (.subscribe v u r.2))
  | .unsubscribe _ _ .returning => some (s, none)
  | .unsubscribe v u phase =>
    (s.unsubscribe (orders v) v u phase).map fun r => (r.1, some (.unsubscribe v u r.2))

/-- A call run to its end with nothing in between; an exception leaves what was written. `none` is
only for too little fuel. -/
def SubscriptionCall.complete (orders : VoucherId → Finset UserId) (source : TtlSource) (now : ℤ) :
    ℕ → Subscriptions → SubscriptionCall → Option Subscriptions
  | 0, _, _ => none
  | fuel + 1, s, call =>
    match call.next s orders source now with
    | none => some s
    | some (s', none) => some s'
    | some (s', some call') => complete orders source now fuel s' call'

section Next

variable {s s' : Subscriptions} {orders : VoucherId → Finset UserId} {source : TtlSource} {now : ℤ}
  {v : VoucherId} {u : UserId} {call' : Option SubscriptionCall}

/-- What a step of a `subscribe` does: it returns, or runs its command. -/
theorem SubscriptionCall.next_subscribe {phase : SubscribePhase}
    (h : (SubscriptionCall.subscribe v u phase).next s orders source now = some (s', call')) :
    phase = .returning ∧ s' = s ∧ call' = none ∨
      ∃ phase', s.subscribe (orders v) source now v u phase = some (s', phase') ∧
        call' = some (.subscribe v u phase') := by
  by_cases hphase : phase = .returning
  · subst hphase
    cases h
    exact Or.inl ⟨rfl, rfl, rfl⟩
  · rw [SubscriptionCall.next] at h
    · obtain ⟨⟨after, phase'⟩, hq, h⟩ := Option.map_eq_some_iff.mp h
      cases h
      exact Or.inr ⟨phase', hq, rfl⟩
    · exact hphase

theorem SubscriptionCall.next_unsubscribe {phase : UnsubscribePhase}
    (h : (SubscriptionCall.unsubscribe v u phase).next s orders source now = some (s', call')) :
    phase = .returning ∧ s' = s ∧ call' = none ∨
      ∃ phase', s.unsubscribe (orders v) v u phase = some (s', phase') ∧
        call' = some (.unsubscribe v u phase') := by
  by_cases hphase : phase = .returning
  · subst hphase
    cases h
    exact Or.inl ⟨rfl, rfl, rfl⟩
  · rw [SubscriptionCall.next] at h
    · obtain ⟨⟨after, phase'⟩, hq, h⟩ := Option.map_eq_some_iff.mp h
      cases h
      exact Or.inr ⟨phase', hq, rfl⟩
    · exact hphase

/-- A `subscribe` with nothing in between has at most ten steps. -/
theorem SubscriptionCall.complete_subscribe :
    (SubscriptionCall.subscribe v u .resolveTtl).complete orders source now 10 s =
      some (match resolveTtlSeconds source with
        | .error _ => s
        | .ok _ =>
          if u ∈ orders v then s.setStatus v u (some VoucherSubscribeStatus.issued.getCode)
          else (s.addSubscriber now v u).setStatus v u
            (some VoucherSubscribeStatus.subscribed.getCode)) := by
  cases httl : resolveTtlSeconds source with
  | error e => simp [complete, next, Subscriptions.subscribe, httl]
  | ok ttl =>
    by_cases horder : u ∈ orders v
    · simp [complete, next, Subscriptions.subscribe, httl, horder]
    · by_cases hmem : u.toText ∈ s.subscribers v <;>
        simp [complete, next, Subscriptions.subscribe, Subscriptions.addSubscriber, httl, horder,
          hmem]

theorem SubscriptionCall.complete_unsubscribe :
    (SubscriptionCall.unsubscribe v u .remove).complete orders source now 10 s =
      some ((s.removeSubscriber v u).setStatus v u
        (if u ∈ orders v then some VoucherSubscribeStatus.issued.getCode else none)) := by
  by_cases horder : u ∈ orders v <;>
    simp [complete, next, Subscriptions.unsubscribe, Subscriptions.removeSubscriber, horder]

end Next

/-! ## The queries -/

/-- `getSubscribeStatus`. -/
def getSubscribeStatus (s : Subscriptions) (orders : VoucherId → Finset UserId) (v : VoucherId)
    (u : UserId) : ℕ :=
  match s.status v u with
  | some cached => cached
  | none =>
    if u ∈ orders v then VoucherSubscribeStatus.issued.getCode
    else if u.toText ∈ s.subscribers v then VoucherSubscribeStatus.subscribed.getCode
    else VoucherSubscribeStatus.unsubscribed.getCode

/-- `listSubscriberUserIds`; `NumberFormatException` skips a value. -/
def listSubscriberUserIds (s : Subscriptions) (voucherId : Option VoucherId) (limit : Int32) :
    LinkedSet UserId :=
  match voucherId with
  | none => LinkedSet.empty
  | some v =>
    if limit ≤ 0 then LinkedSet.empty
    else LinkedSet.empty.addAll (((s.queue v).range limit.toInt.toNat).filterMap Long.valueOf)

/-- With a limit that covers the queue, and no member that is not an id, every member is listed. -/
theorem mem_listSubscriberUserIds {s : Subscriptions} {v : VoucherId} {limit : Int32} {u : UserId}
    (hids : ∀ x ∈ (s.queue v).members, ∃ w : UserId, x = w.toText)
    (hlimit : ((s.queue v).members.length : ℤ) ≤ limit.toInt) :
    u ∈ (listSubscriberUserIds s (some v) limit).elements ↔ u.toText ∈ (s.queue v).members := by
  unfold listSubscriberUserIds
  by_cases hpos : limit ≤ 0
  · have hle : limit.toInt ≤ 0 := Int32.le_iff_toInt_le.mp hpos
    have hnil : (s.queue v).members = [] := List.length_eq_zero_iff.mp (by omega)
    simp [hpos, hnil, LinkedSet.empty]
  · have hall : (s.queue v).range limit.toInt.toNat = (s.queue v).members :=
      List.take_of_length_le (by omega)
    simp only [if_neg hpos, hall, LinkedSet.mem_addAll, List.mem_filterMap]
    constructor
    · rintro (⟨x, hx, hvalue⟩ | hempty)
      · obtain ⟨w, rfl⟩ := hids x hx
        rw [Long.valueOf_toText, Option.some_inj] at hvalue
        exact hvalue ▸ hx
      · cases hempty
    · exact fun hmem => Or.inl ⟨u.toText, hmem, Long.valueOf_toText u⟩

/-- `markPurchased` is empty. -/
def markPurchased (s : Subscriptions) : Subscriptions := s

/-- `clearPurchased` is empty. -/
def clearPurchased (s : Subscriptions) : Subscriptions := s

end Hmdp.Model
