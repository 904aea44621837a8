import Hmdp.Model.Subscription
import Hmdp.Model.TopBuyer
import Mathlib.Data.List.Sort

/-!
# Reminders of an activity

`SeckillReminderServiceImpl`: `schedule` sets a marker for a voucher and a begin time, once, and
then offers the message `v|beginAt` to a delayed queue; from there it gets to the ready queue when
its time has come, and `handleReminder` publishes the reminder, if the begin time is still that of
the message.

* A `LocalDateTime` stands for its `toEpochMilli`; clocks show milliseconds too.
* The delayed queue is that of Redisson: an offer waits for its delay, and what is due is moved to
  the ready queue in the order of the due times.
* `delayedQueue` is `null` exactly where reminders are off, which `init` reads once.
* The data `handleReminder` gets of other services are as they answer at that moment
  (`ReminderReads`), a failure of the top buyer query included.
-/

namespace Hmdp.Model

open Hmdp.Lib

/-- What the properties say. -/
structure ReminderProperties where
  /-- `isEnabled`, of the marketing and of the reminders -/
  enabled : Bool
  leadSeconds : Int32
  maxAudience : Int32
  topBuyerDays : Int32
  topBuyerCount : Int32
  vipMinLevel : Int32
  vipCount : Int32

/-! ## Messages -/

/-- `voucherId + "|" + beginAt`. -/
def reminderMessage (v : VoucherId) (beginAt : Long) : Text := v.toText ++ '|' :: beginAt.toText

/-- What `handleReminder` reads off a message: `split("\\|", 2)` and two numbers. -/
def parseReminder (message : Text) : Option (VoucherId × Long) :=
  match message.dropWhile (· ≠ '|') with
  | [] => none
  | _ :: beginAtText =>
    (Long.valueOf (message.takeWhile (· ≠ '|'))).bind fun voucherId =>
      (Long.valueOf beginAtText).map fun beginAt => (voucherId, beginAt)

/-- **Round trip**: a message that was offered is read as what it was built from. -/
@[simp] theorem parseReminder_message (v : VoucherId) (beginAt : Long) :
    parseReminder (reminderMessage v beginAt) = some (v, beginAt) := by
  have hne : ∀ c ∈ v.toText, decide (c ≠ '|') = true := fun c hc =>
    decide_eq_true fun heq => Long.separator_not_mem_toText v (heq ▸ hc)
  have hdrop : (reminderMessage v beginAt).dropWhile (· ≠ '|') = '|' :: beginAt.toText := by
    rw [reminderMessage, List.dropWhile_append_of_pos hne, List.dropWhile_cons_of_neg (by simp)]
  have htake : (reminderMessage v beginAt).takeWhile (· ≠ '|') = v.toText := by
    rw [reminderMessage, List.takeWhile_append_of_pos hne, List.takeWhile_cons_of_neg (by simp),
      List.append_nil]
  simp only [parseReminder, hdrop, htake, Long.valueOf_toText, Option.bind_some, Option.map_some]

theorem reminderMessage_inj {v v' : VoucherId} {beginAt beginAt' : Long} :
    reminderMessage v beginAt = reminderMessage v' beginAt' ↔ (v, beginAt) = (v', beginAt') := by
  refine ⟨fun h => ?_, fun h => by cases h; rfl⟩
  have hread := parseReminder_message v beginAt
  rw [h, parseReminder_message] at hread
  exact (Option.some.inj hread).symm

/-! ## `schedule` -/

/-- The keys and queues of the reminders. -/
structure Reminders where
  /-- when `seckill:reminder:scheduled:<v>:<beginAt>` expires, if it was set -/
  scheduled : VoucherId → Long → Option ℤ
  /-- with their due times, in due order -/
  delayed : List (ℤ × Text)
  ready : List Text

/-- No tasks and no markers. -/
def Reminders.empty : Reminders := ⟨fun _ _ => none, [], []⟩

/-- Every message that is queued. -/
def Reminders.queued (s : Reminders) : List Text := s.delayed.map Prod.snd ++ s.ready

/-- The checks of `schedule` and the `keyTtlMillis` it goes on with; `none` where it returns. -/
def scheduleTtl (properties : ReminderProperties) (now : ℤ) (voucherId : Option VoucherId)
    (beginTime : Option Long) : Option (VoucherId × Long × ℤ) :=
  match properties.enabled, voucherId, beginTime with
  | true, some v, some beginAt =>
    if beginAt.toInt ≤ now then none
    else some (v, beginAt, max 3600000 (beginAt.toInt + 86400000 - now))
  | _, _, _ => none

/-- `setIfAbsent(scheduledKey, "1", keyTtlMillis)`. -/
def Reminders.setIfAbsent (s : Reminders) (now : ℤ) (v : VoucherId) (beginAt : Long) (ttl : ℤ) :
    Bool × Reminders :=
  if (s.scheduled v beginAt).any (decide <| now < ·) then (false, s)
  else
    (true, { s with scheduled :=
      Function.update s.scheduled v (Function.update (s.scheduled v) beginAt (some (now + ttl))) })

/-- `triggerAt`, and the wait until then. -/
def delayMillis (properties : ReminderProperties) (now : ℤ) (beginAt : Long) : ℤ :=
  max 0 (beginAt.toInt - max 0 properties.leadSeconds.toInt * 1000 - now)

/-- `delayedQueue.offer`. -/
def Reminders.offer (s : Reminders) (properties : ReminderProperties) (now : ℤ) (v : VoucherId)
    (beginAt : Long) : Reminders :=
  { s with
    delayed := s.delayed.orderedInsert (fun a b => a.1 < b.1)
      (now + delayMillis properties now beginAt, reminderMessage v beginAt) }

/-- The first delayed message gets to the ready queue, if it is due. -/
def Reminders.fire (s : Reminders) (now : ℤ) : Option Reminders :=
  match s.delayed with
  | [] => none
  | (due, message) :: rest =>
    if due ≤ now then some { s with delayed := rest, ready := s.ready ++ [message] } else none

/-- `readyQueue.poll`. -/
def Reminders.poll (s : Reminders) : Option (Text × Reminders) :=
  match s.ready with
  | [] => none
  | message :: rest => some (message, { s with ready := rest })

/-! ## `handleReminder` -/

/-- What `handleReminder` reads of a row of `tb_voucher`. -/
structure VoucherRow where
  title : Text
  shopId : Option ShopId

/-- The answers of the other services. -/
structure ReminderReads where
  subscriptions : Subscriptions
  topBuyers : TopBuyers
  users : UserTables
  /-- what `LocalDate.now()` gives in each round of the top buyer query -/
  today : ℕ → Day
  /-- `selectVipUserIds` for a level and a count; `none` for `null` -/
  selectVipUserIds : ℤ → ℤ → Option (List UserId)
  /-- what `publish` returns for a user -/
  accepts : UserId → Bool

/-- The arguments of a `publish`. -/
structure ReminderNotification where
  userId : UserId
  type : Text
  title : Text
  content : Text
  voucherId : VoucherId
  deduplicationKey : Text
  deriving DecidableEq

/-- `queryTopBuyerUserIds`; `none` where `queryTopBuyers` throws. -/
def queryTopBuyerUserIds (reads : ReminderReads) (shopId : ShopId) (days limit : Int32) :
    Option (LinkedSet UserId) :=
  (queryTopBuyers reads.users reads.today (some shopId) days limit reads.topBuyers).map
    fun topBuyers => LinkedSet.empty.addAll (topBuyers.map TopBuyerDTO.userId)

/-- `maxAudience`, at least 1. -/
def ReminderProperties.audienceLimit (properties : ReminderProperties) : Int32 :=
  max 1 properties.maxAudience

/-- The audience; `none` where the top buyer query throws. -/
def audience (properties : ReminderProperties) (reads : ReminderReads) (v : VoucherId)
    (voucher : VoucherRow) : Option (LinkedSet UserId) :=
  let maxAudience := properties.audienceLimit
  let subscribers := LinkedSet.empty.addAll
    (listSubscriberUserIds reads.subscriptions (some v) maxAudience).elements
  let withBuyers : Option (LinkedSet UserId) :=
    match voucher.shopId with
    | some shopId =>
      if (subscribers.size : ℤ) < maxAudience.toInt then
        (queryTopBuyerUserIds reads shopId (max 1 properties.topBuyerDays)
          (max 1 properties.topBuyerCount)).map fun buyers => subscribers.addAll buyers.elements
      else some subscribers
    | none => some subscribers
  withBuyers.map fun users =>
    if (users.size : ℤ) < maxAudience.toInt then
      match reads.selectVipUserIds (max 0 properties.vipMinLevel.toInt)
          (max 1 properties.vipCount.toInt) with
      | some vipUserIds => users.addAll vipUserIds
      | none => users
    else users

/-- The loop over the audience: what is published, until `sent` reaches the limit. -/
def publishAll (accepts : UserId → Bool) (maxAudience : ℤ)
    (notification : UserId → ReminderNotification) : ℤ → List UserId → List ReminderNotification
  | _, [] => []
  | sent, userId :: rest =>
    if maxAudience ≤ sent then []
    else notification userId :: publishAll accepts maxAudience notification
      (if accepts userId then sent + 1 else sent) rest

/-- The notification of a user. -/
def reminderNotification (v : VoucherId) (beginAt : Long) (voucher : VoucherRow) (userId : UserId) :
    ReminderNotification where
  userId := userId
  type := "SECKILL_REMINDER".toList
  title := "秒杀即将开始".toList
  content := "你关注的“".toList ++ voucher.title ++ "”将在2分钟内开抢".toList
  voucherId := v
  deduplicationKey := "reminder:".toList ++ v.toText ++ ':' :: beginAt.toText

/-- `handleReminder`: the reminder it publishes; `none` where it returns before, or throws. -/
def handleReminder (properties : ReminderProperties) (vouchers : VoucherId → Option VoucherRow)
    (beginTime : VoucherId → Option Long) (now : ℤ) (reads : ReminderReads) (message : Text) :
    Option ((VoucherId × Long) × List ReminderNotification) :=
  (parseReminder message).bind fun (v, scheduledBeginAt) =>
    (beginTime v).bind fun beginAt =>
      if beginAt ≠ scheduledBeginAt ∨ beginAt.toInt ≤ now then none
      else
        (vouchers v).bind fun voucher =>
          (audience properties reads v voucher).map fun users =>
            ((v, scheduledBeginAt), publishAll reads.accepts properties.audienceLimit.toInt
              (reminderNotification v scheduledBeginAt voucher) 0 users.elements)

section Lemmas

variable {s s' : Reminders} {properties : ReminderProperties} {now : ℤ} {v : VoucherId}
  {beginAt : Long}

/-- **When `handleReminder` publishes**, and for whom. -/
theorem handleReminder_eq_some {vouchers : VoucherId → Option VoucherRow}
    {beginTime : VoucherId → Option Long} {reads : ReminderReads} {message : Text}
    {published : (VoucherId × Long) × List ReminderNotification} :
    handleReminder properties vouchers beginTime now reads message = some published ↔
      parseReminder message = some published.1 ∧ beginTime published.1.1 = some published.1.2 ∧
        now < published.1.2.toInt ∧
        ∃ voucher users, vouchers published.1.1 = some voucher ∧
          audience properties reads published.1.1 voucher = some users ∧
          published.2 = publishAll reads.accepts properties.audienceLimit.toInt
            (reminderNotification published.1.1 published.1.2 voucher) 0 users.elements := by
  obtain ⟨⟨w, b⟩, notifications⟩ := published
  constructor
  · intro h
    obtain ⟨⟨v, scheduledBeginAt⟩, hparse, h⟩ := Option.bind_eq_some_iff.mp h
    obtain ⟨beginAt, hbegin, h⟩ := Option.bind_eq_some_iff.mp h
    split at h
    · cases h
    rename_i hnow
    obtain ⟨voucher, hvoucher, h⟩ := Option.bind_eq_some_iff.mp h
    obtain ⟨users, husers, h⟩ := Option.map_eq_some_iff.mp h
    cases h
    obtain ⟨hsame, hfuture⟩ := not_or.mp hnow
    exact ⟨hparse, hbegin.trans (congrArg some (not_not.mp hsame)),
      not_not.mp hsame ▸ not_le.mp hfuture, voucher, users, hvoucher, husers, rfl⟩
  · rintro ⟨hparse, hbegin, hfuture, voucher, users, hvoucher, husers, hall⟩
    simp only at hbegin hfuture hvoucher husers hall
    simp only [handleReminder, hparse, Option.bind_some, hbegin, ne_eq, not_true_eq_false, false_or,
      if_neg (not_le.mpr hfuture), hvoucher, husers, Option.map_some, hall]

theorem mem_publishAll {accepts : UserId → Bool} {maxAudience sent : ℤ}
    {notification : UserId → ReminderNotification} {users : List UserId}
    {n : ReminderNotification} (h : n ∈ publishAll accepts maxAudience notification sent users) :
    ∃ u ∈ users, n = notification u := by
  induction users generalizing sent with
  | nil => cases h
  | cons userId rest ih =>
    simp only [publishAll] at h
    split at h
    · cases h
    · obtain rfl | h := List.mem_cons.mp h
      · exact ⟨userId, List.mem_cons_self, rfl⟩
      · obtain ⟨u, hu, heq⟩ := ih h
        exact ⟨u, List.mem_cons_of_mem _ hu, heq⟩

/-- Every notification of a reminder names its voucher and its begin time. -/
theorem handleReminder_names {vouchers : VoucherId → Option VoucherRow}
    {beginTime : VoucherId → Option Long} {reads : ReminderReads} {message : Text}
    {published : (VoucherId × Long) × List ReminderNotification}
    (h : handleReminder properties vouchers beginTime now reads message = some published) :
    ∀ n ∈ published.2, n.voucherId = published.1.1 ∧
      n.deduplicationKey =
        "reminder:".toList ++ published.1.1.toText ++ ':' :: published.1.2.toText := by
  intro n hn
  obtain ⟨-, -, -, voucher, users, -, -, hall⟩ := handleReminder_eq_some.mp h
  rw [hall] at hn
  obtain ⟨u, -, rfl⟩ := mem_publishAll hn
  exact ⟨rfl, rfl⟩

theorem setIfAbsent_cases (s : Reminders) (now : ℤ) (v : VoucherId) (beginAt : Long) (ttl : ℤ) :
    (∃ deadline, s.scheduled v beginAt = some deadline ∧ now < deadline ∧
        s.setIfAbsent now v beginAt ttl = (false, s)) ∨
      (∀ deadline, s.scheduled v beginAt = some deadline → deadline ≤ now) ∧
        s.setIfAbsent now v beginAt ttl = (true, { s with
          scheduled := Function.update s.scheduled v
            (Function.update (s.scheduled v) beginAt (some (now + ttl))) }) := by
  unfold Reminders.setIfAbsent
  cases hkey : s.scheduled v beginAt with
  | none => exact Or.inr ⟨fun d hd => absurd hd (by simp), by simp⟩
  | some deadline =>
    by_cases hlive : now < deadline
    · exact Or.inl ⟨deadline, rfl, hlive, by simp [hlive]⟩
    · refine Or.inr ⟨fun d hd => ?_, by simp [hlive]⟩
      cases hd
      exact not_lt.mp hlive

@[simp] theorem scheduled_offer :
    (s.offer properties now v beginAt).scheduled = s.scheduled := rfl

/-- An offer adds its message. -/
theorem count_offer (m : Text) :
    (s.offer properties now v beginAt).queued.count m =
      s.queued.count m + if reminderMessage v beginAt = m then 1 else 0 := by
  have hperm := (List.perm_orderedInsert (fun a b : ℤ × Text => a.1 < b.1)
    (now + delayMillis properties now beginAt, reminderMessage v beginAt) s.delayed).map Prod.snd
  simp only [Reminders.queued, Reminders.offer, List.count_append, hperm.count_eq, List.map_cons,
    List.count_cons, beq_iff_eq]
  omega

/-- A message that is due changes the queue. -/
theorem fire_queued (h : s.fire now = some s') :
    s'.scheduled = s.scheduled ∧ s'.queued.Perm s.queued := by
  unfold Reminders.fire at h
  split at h
  · cases h
  · rename_i due message rest hdelayed
    split at h
    · cases h
      refine ⟨rfl, ?_⟩
      simp only [Reminders.queued, hdelayed, List.map_cons, List.cons_append]
      rw [← List.append_assoc]
      exact List.perm_append_singleton _ _
    · cases h

/-- A poll takes its message. -/
theorem poll_queued {message : Text} (h : s.poll = some (message, s')) :
    s'.scheduled = s.scheduled ∧ s.queued.Perm (message :: s'.queued) := by
  unfold Reminders.poll at h
  split at h
  · cases h
  · rename_i first rest hready
    cases h
    refine ⟨rfl, ?_⟩
    simp only [Reminders.queued, hready]
    exact List.perm_middle

end Lemmas

end Hmdp.Model
