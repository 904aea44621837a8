import Hmdp.Lib.InFlight
import Hmdp.Lib.Machine
import Hmdp.Model.Reminder

/-!
# Every reminder in one place

Begin times are committed, any number of callers are in `schedule`, the delayed queue fires, and
`handleReminder` takes one message after the other; the clock goes on between the steps. A call of
`schedule` sets the marker and offers the message in two steps, and it may fail before each.

While the begin time is to come, a marker that is set stands for one message, and that is in one
place (`Custody`): still to be offered, queued, published, or lost: its call has failed, or
`handleReminder` has dropped it, because the begin time was another then. The marker never gives the
message back.

* **`invariant_step`**: every step keeps each message in one place.
* `reminded_iff_not_gone`: the message of a marker that is set is there or gone, not both.
-/

namespace Hmdp.Reminder

open Hmdp.Lib Hmdp.Model

/-! ## The steps -/

/-- Where a `schedule` stands. -/
inductive SchedulePhase where
  | setIfAbsent (ttl : ℤ)
  | offer
  deriving DecidableEq

/-- A `schedule` under way. -/
structure ScheduleCall where
  voucherId : VoucherId
  beginAt : Long
  phase : SchedulePhase
  deriving DecidableEq

/-- The begin times, the tasks in Redis, and the calls under way. -/
structure State (Caller : Type) where
  now : ℤ
  /-- the committed `begin_time`; `none` for no row -/
  beginTime : VoucherId → Option Long
  reminders : Reminders
  calls : Caller → Option ScheduleCall
  /-- for which `schedule` has returned normally -/
  returned : List (VoucherId × Long)
  /-- what `handleReminder` has published -/
  published : List ((VoucherId × Long) × List ReminderNotification)
  /-- whose call failed before the offer, or whose message `handleReminder` did not publish -/
  lost : List (VoucherId × Long)

/-- The steps: time, a commit, the statements of `schedule`, and those of the listener. -/
inductive Action (Caller : Type) where
  | tick (now : ℤ)
  | commit (v : VoucherId) (beginAt : Long)
  | start (c : Caller) (voucherId : Option VoucherId) (beginTime : Option Long)
  | next (c : Caller)
  | fail (c : Caller)
  | fire
  | handle (reads : ReminderReads)

variable {Caller : Type} [DecidableEq Caller]

/-- No task and no call. -/
def State.init (now : ℤ) (beginTime : VoucherId → Option Long) : State Caller :=
  ⟨now, beginTime, .empty, fun _ => none, [], [], []⟩

/-- The pair a call is for, where it names one. -/
def pairOf : Option VoucherId → Option Long → List (VoucherId × Long)
  | some v, some b => [(v, b)]
  | _, _ => []

section Step

variable (properties : ReminderProperties) (vouchers : VoucherId → Option VoucherRow)

/-- One step; `none` where it is not possible. -/
def step (s : State Caller) : Action Caller → Option (State Caller)
  | .tick now => if s.now ≤ now then some { s with now } else none
  | .commit v beginAt =>
    some { s with beginTime := Function.update s.beginTime v (some beginAt) }
  | .start c voucherId beginTime =>
    if (s.calls c).isNone then
      match scheduleTtl properties s.now voucherId beginTime with
      | none => some { s with returned := pairOf voucherId beginTime ++ s.returned }
      | some (v, beginAt, ttl) =>
        some { s with calls := Function.update s.calls c (some ⟨v, beginAt, .setIfAbsent ttl⟩) }
    else none
  | .next c =>
    match s.calls c with
    | none => none
    | some ⟨v, beginAt, .setIfAbsent ttl⟩ =>
      let r := s.reminders.setIfAbsent s.now v beginAt ttl
      if r.1 then
        some { s with
          reminders := r.2
          calls := Function.update s.calls c (some ⟨v, beginAt, .offer⟩) }
      else
        some { s with
          reminders := r.2
          calls := Function.update s.calls c none
          returned := (v, beginAt) :: s.returned }
    | some ⟨v, beginAt, .offer⟩ =>
      some { s with
        reminders := s.reminders.offer properties s.now v beginAt
        calls := Function.update s.calls c none
        returned := (v, beginAt) :: s.returned }
  | .fail c =>
    match s.calls c with
    | none => none
    | some ⟨_, _, .setIfAbsent _⟩ => some { s with calls := Function.update s.calls c none }
    | some ⟨v, beginAt, .offer⟩ =>
      some { s with calls := Function.update s.calls c none, lost := (v, beginAt) :: s.lost }
  | .fire => (s.reminders.fire s.now).map fun reminders => { s with reminders }
  | .handle reads =>
    s.reminders.poll.map fun r =>
      match handleReminder properties vouchers s.beginTime s.now reads r.1 with
      | some reminder =>
        { s with reminders := r.2, published := reminder :: s.published }
      | none =>
        { s with reminders := r.2, lost := (parseReminder r.1).toList ++ s.lost }

end Step

/-! ## Where a message is -/

/-- The call is to offer the pair's message. -/
def offering (v : VoucherId) (b : Long) (call : Option ScheduleCall) : ℤ :=
  if call = some ⟨v, b, .offer⟩ then 1 else 0

/-- What the pair's marker stands for, less what is queued, published or lost. -/
def missing (v : VoucherId) (b : Long) (s : State Caller) : ℤ :=
  (s.reminders.scheduled v b).isSome.toNat - s.reminders.queued.count (reminderMessage v b) -
    (s.published.map Prod.fst).count (v, b) - s.lost.count (v, b)

/-- A marker that is set stands for one message, in one place: what is missing is to be offered. -/
def Custody (v : VoucherId) (b : Long) (s : State Caller) : Prop :=
  InFlight (offering v b) s.calls (missing v b s)

/-- A call that is to set a marker gives it until after the begin time. -/
def LongEnough (now : ℤ) (call : Option ScheduleCall) : Prop :=
  ∀ v b ttl, call = some ⟨v, b, .setIfAbsent ttl⟩ → b.toInt < now + ttl

/-- What holds in every state. -/
structure Invariant (properties : ReminderProperties) (s : State Caller) : Prop where
  custody : ∀ v b, s.now < b.toInt → Custody v b s
  /-- a message is one that was offered -/
  messages : ∀ m ∈ s.reminders.queued, ∃ v b, m = reminderMessage v b
  /-- a marker outlives the begin time -/
  scheduled : ∀ v b deadline, s.reminders.scheduled v b = some deadline → b.toInt < deadline
  ttl : ∀ c, LongEnough s.now (s.calls c)
  returned : properties.enabled = true → ∀ v b, (v, b) ∈ s.returned → s.now < b.toInt →
    (s.reminders.scheduled v b).isSome = true
  disabled : properties.enabled = false →
    (∀ c, s.calls c = none) ∧ ∀ v b, s.reminders.scheduled v b = none

section Custody

variable {properties : ReminderProperties} {vouchers : VoucherId → Option VoucherRow}
  {s t : State Caller} {v : VoucherId} {b : Long} {c : Caller}

omit [DecidableEq Caller] in
theorem offering_nonneg (call : Option ScheduleCall) : 0 ≤ offering v b call := by
  unfold offering
  split <;> decide

/-- A call moves on, and what is missing changes by what it was to offer and is to offer now. -/
theorem custody_move {call : Option ScheduleCall} (hs : Custody v b s)
    (hcalls : t.calls = Function.update s.calls c call)
    (hmissing : missing v b t = missing v b s - offering v b (s.calls c) + offering v b call) :
    Custody v b t := by
  have hmoved := InFlight.update hs c call
  rwa [← hcalls, ← hmissing] at hmoved

omit [DecidableEq Caller] in
/-- A message that is to be offered is missing. -/
theorem one_le_missing (hs : Custody v b s) (hcall : s.calls c = some ⟨v, b, .offer⟩) :
    1 ≤ missing v b s := by
  have hle := hs.le offering_nonneg c
  rwa [hcall, offering, if_pos rfl] at hle

/-- The message is published, or in one of the queues. -/
def Reminded (v : VoucherId) (b : Long) (s : State Caller) : Prop :=
  reminderMessage v b ∈ s.reminders.queued ∨ (v, b) ∈ s.published.map Prod.fst

/-- The message is lost, or not offered yet. -/
def Gone (v : VoucherId) (b : Long) (s : State Caller) : Prop :=
  (v, b) ∈ s.lost ∨ ∃ c, s.calls c = some ⟨v, b, .offer⟩

omit [DecidableEq Caller] in
/-- **One place**: the message of a marker that is set is there or gone, not both. -/
theorem reminded_iff_not_gone (hs : Custody v b s)
    (hscheduled : (s.reminders.scheduled v b).isSome = true) : Reminded v b s ↔ ¬ Gone v b s := by
  have hnonneg : 0 ≤ missing v b s := hs.nonneg offering_nonneg
  have hsum : missing v b s + s.reminders.queued.count (reminderMessage v b) +
      (s.published.map Prod.fst).count (v, b) + s.lost.count (v, b) = 1 := by
    unfold missing
    rw [hscheduled, Bool.toNat_true]
    omega
  constructor
  · rintro hreminded (hlost | ⟨c, hcall⟩)
    · have hcount := List.count_pos_iff.mpr hlost
      obtain hqueued | hpublished := hreminded
      · have := List.count_pos_iff.mpr hqueued
        omega
      · have := List.count_pos_iff.mpr hpublished
        omega
    · have hcount := one_le_missing hs hcall
      obtain hqueued | hpublished := hreminded
      · have := List.count_pos_iff.mpr hqueued
        omega
      · have := List.count_pos_iff.mpr hpublished
        omega
  · intro hgone
    by_contra hnot
    obtain ⟨hqueued, hpublished⟩ := not_or.mp hnot
    obtain ⟨hlost, hoffering⟩ := not_or.mp hgone
    rw [List.count_eq_zero.mpr hqueued, List.count_eq_zero.mpr hpublished,
      List.count_eq_zero.mpr hlost] at hsum
    have hzero : missing v b s = 0 := hs.eq_zero fun c => by
      rw [offering, if_neg fun hcall => hoffering ⟨c, hcall⟩]
    omega

omit [DecidableEq Caller] in
/-- Without a marker there is no message. -/
theorem not_reminded_of_unscheduled (hs : Custody v b s)
    (hnone : s.reminders.scheduled v b = none) :
    ¬ Reminded v b s ∧ ¬ Gone v b s := by
  have hnonneg : 0 ≤ missing v b s := hs.nonneg offering_nonneg
  have hsum : missing v b s + s.reminders.queued.count (reminderMessage v b) +
      (s.published.map Prod.fst).count (v, b) + s.lost.count (v, b) = 0 := by
    unfold missing
    rw [hnone, Option.isSome_none, Bool.toNat_false]
    omega
  refine ⟨fun hreminded => ?_, fun hgone => ?_⟩
  · obtain hqueued | hpublished := hreminded
    · have := List.count_pos_iff.mpr hqueued
      omega
    · have := List.count_pos_iff.mpr hpublished
      omega
  · obtain hlost | ⟨c, hcall⟩ := hgone
    · have := List.count_pos_iff.mpr hlost
      omega
    · have := one_le_missing hs hcall
      omega

end Custody

section Invariant

variable {properties : ReminderProperties} {vouchers : VoucherId → Option VoucherRow}
  {s t : State Caller} {v : VoucherId} {b : Long} {c : Caller}

/-- Another marker, or the marker of another pair. -/
theorem scheduled_update {f : VoucherId → Long → Option ℤ} {v' : VoucherId} {b' : Long}
    {deadline : Option ℤ} :
    Function.update f v (Function.update (f v) b deadline) v' b' =
      if v' = v ∧ b' = b then deadline else f v' b' := by
  by_cases hv : v' = v
  · subst hv
    by_cases hb : b' = b
    · subst hb
      simp
    · simp [hb]
  · simp [hv]

theorem offering_none : offering v b none = 0 := rfl

/-- Before its marker is set a call is to offer nothing. -/
theorem offering_setIfAbsent {v' : VoucherId} {b' : Long} {ttl : ℤ} :
    offering v' b' (some ⟨v, b, .setIfAbsent ttl⟩) = 0 := by
  simp [offering]

theorem offering_offer {v' : VoucherId} {b' : Long} :
    offering v' b' (some ⟨v, b, .offer⟩) = if v' = v ∧ b' = b then 1 else 0 := by
  simp [offering, eq_comm]

/-- A `schedule` that goes on has set itself a time to live beyond the begin time. -/
theorem scheduleTtl_eq_some {now ttl : ℤ} {voucherId : Option VoucherId} {beginTime : Option Long}
    (h : scheduleTtl properties now voucherId beginTime = some (v, b, ttl)) :
    properties.enabled = true ∧ b.toInt < now + ttl := by
  unfold scheduleTtl at h
  split at h
  · rename_i henabled
    split at h
    · cases h
    · cases h
      exact ⟨henabled, by omega⟩
  · cases h

/-- One that returns at once was for a time that is past, or with reminders off. -/
theorem scheduleTtl_eq_none {now : ℤ}
    (h : scheduleTtl properties now (some v) (some b) = none)
    (henabled : properties.enabled = true) : b.toInt ≤ now := by
  unfold scheduleTtl at h
  rw [henabled] at h
  simp only at h
  split at h
  · assumption
  · cases h

theorem mem_pairOf {voucherId : Option VoucherId} {beginTime : Option Long} :
    (v, b) ∈ pairOf voucherId beginTime ↔ voucherId = some v ∧ beginTime = some b := by
  cases voucherId <;> cases beginTime <;> simp [pairOf, eq_comm]

theorem longEnough_update {now : ℤ} {calls : Caller → Option ScheduleCall}
    {call : Option ScheduleCall} (hs : ∀ c, LongEnough now (calls c)) (hcall : LongEnough now call)
    (c' : Caller) : LongEnough now (Function.update calls c call c') :=
  (Function.forall_update_iff calls fun _ call => LongEnough now call).mpr
    ⟨hcall, fun other _ => hs other⟩ c'

theorem invariant_start {voucherId : Option VoucherId} {beginTime : Option Long}
    (hs : Invariant properties s)
    (hstep : step properties vouchers s (.start c voucherId beginTime) = some t) :
    Invariant properties t := by
  simp only [step] at hstep
  split at hstep
  swap
  · cases hstep
  rename_i hfree
  have hnone := Option.isNone_iff_eq_none.mp hfree
  split at hstep
  · rename_i hreturns
    cases hstep
    refine ⟨hs.custody, hs.messages, hs.scheduled, hs.ttl, fun henabled v b hmem hnow => ?_,
      hs.disabled⟩
    obtain hmem | hmem := List.mem_append.mp hmem
    · obtain ⟨rfl, rfl⟩ := mem_pairOf.mp hmem
      exact absurd hnow (not_lt.mpr (scheduleTtl_eq_none hreturns henabled))
    · exact hs.returned henabled v b hmem hnow
  · rename_i v b ttl hgoes
    cases hstep
    obtain ⟨henabled, httl⟩ := scheduleTtl_eq_some hgoes
    refine ⟨fun v' b' hnow => custody_move (hs.custody v' b' hnow) rfl ?_, hs.messages,
      hs.scheduled, longEnough_update hs.ttl ?_, hs.returned, fun hoff => ?_⟩
    · rw [hnone, offering_setIfAbsent, offering_none, sub_zero, add_zero]
      rfl
    · intro v' b' ttl' hcall
      cases hcall
      exact httl
    · rw [henabled] at hoff
      cases hoff

omit [DecidableEq Caller] in
/-- With reminders off, nobody gets as far as a marker. -/
theorem Invariant.enabled {call : ScheduleCall} (hs : Invariant properties s)
    (hcall : s.calls c = some call) : properties.enabled = true := by
  by_contra hoff
  have hnone := (hs.disabled (Bool.not_eq_true _ ▸ hoff)).1 c
  rw [hcall] at hnone
  cases hnone

/-- The marker is set, or was set before. -/
theorem invariant_setIfAbsent {ttl : ℤ} (hs : Invariant properties s)
    (hcall : s.calls c = some ⟨v, b, .setIfAbsent ttl⟩)
    (hstep : step properties vouchers s (.next c) = some t) : Invariant properties t := by
  have henabled := hs.enabled hcall
  have hcontra : ∀ {P : Prop}, properties.enabled = false → P := fun hoff => by
    rw [henabled] at hoff
    cases hoff
  simp only [step, hcall] at hstep
  obtain ⟨deadline, hkey, hlive, hfound⟩ | ⟨hdead, hset⟩ :=
    setIfAbsent_cases s.reminders s.now v b ttl
  · rw [hfound] at hstep
    cases hstep
    refine ⟨fun v' b' hnow => custody_move (hs.custody v' b' hnow) rfl ?_, hs.messages,
      hs.scheduled, longEnough_update hs.ttl fun _ _ _ h => (nomatch h),
      fun _ v' b' hmem hnow => ?_, hcontra⟩
    · rw [hcall, offering_setIfAbsent, offering_none, sub_zero, add_zero]
      rfl
    · obtain heq | hmem := List.mem_cons.mp hmem
      · cases heq
        rw [hkey, Option.isSome_some]
      · exact hs.returned henabled v' b' hmem hnow
  · rw [hset] at hstep
    cases hstep
    refine ⟨fun v' b' hnow => custody_move (hs.custody v' b' hnow) rfl ?_, hs.messages,
      fun v' b' deadline hkey => ?_, longEnough_update hs.ttl fun _ _ _ h => (nomatch h),
      fun _ v' b' hmem hnow => ?_, hcontra⟩
    · rw [hcall, offering_setIfAbsent, offering_offer]
      have hfuture : s.now < b'.toInt := hnow
      simp only [missing, scheduled_update, Reminders.queued]
      split
      · -- while the begin time is to come, no marker of the pair was there
        rename_i hpair
        obtain ⟨rfl, rfl⟩ := hpair
        have hnone : s.reminders.scheduled v' b' = none :=
          Option.eq_none_iff_forall_ne_some.mpr fun deadline hkey => by
            have := hs.scheduled v' b' deadline hkey
            have := hdead deadline hkey
            omega
        rw [hnone, Option.isSome_none, Option.isSome_some, Bool.toNat_false, Bool.toNat_true]
        omega
      · omega
    · simp only [scheduled_update] at hkey
      split at hkey
      · rename_i hpair
        obtain ⟨rfl, rfl⟩ := hpair
        cases hkey
        exact hs.ttl c v' b' ttl hcall
      · exact hs.scheduled v' b' deadline hkey
    · simp only [scheduled_update]
      split
      · rfl
      · exact hs.returned henabled v' b' hmem hnow

/-- The message is offered. -/
theorem invariant_offer (hs : Invariant properties s)
    (hcall : s.calls c = some ⟨v, b, .offer⟩)
    (hstep : step properties vouchers s (.next c) = some t) : Invariant properties t := by
  have henabled := hs.enabled hcall
  simp only [step, hcall] at hstep
  cases hstep
  refine ⟨fun v' b' hnow => custody_move (hs.custody v' b' hnow) rfl ?_, fun m hm => ?_,
    hs.scheduled, longEnough_update hs.ttl fun _ _ _ h => (nomatch h),
    fun _ v' b' hmem hnow => ?_, fun hoff => ?_⟩
  · rw [hcall, offering_offer, offering_none]
    simp only [missing, count_offer, scheduled_offer, reminderMessage_inj, Prod.mk.injEq,
      eq_comm (a := v), eq_comm (a := b)]
    by_cases hpair : v' = v ∧ b' = b
    · simp only [if_pos hpair]
      omega
    · simp only [if_neg hpair]
      omega
  · have hcount := List.count_pos_iff.mpr hm
    rw [count_offer] at hcount
    by_cases heq : reminderMessage v b = m
    · exact ⟨v, b, heq.symm⟩
    · rw [if_neg heq, add_zero] at hcount
      exact hs.messages m (List.count_pos_iff.mp hcount)
  · obtain heq | hmem := List.mem_cons.mp hmem
    · cases heq
      -- what was to be offered had a marker
      by_contra hnone
      have hnone : s.reminders.scheduled v b = none := by simpa using hnone
      exact (not_reminded_of_unscheduled (hs.custody v b hnow) hnone).2 (Or.inr ⟨c, hcall⟩)
    · exact hs.returned henabled v' b' hmem hnow
  · rw [henabled] at hoff
    cases hoff

/-- A call fails. -/
theorem invariant_fail (hs : Invariant properties s)
    (hstep : step properties vouchers s (.fail c) = some t) : Invariant properties t := by
  simp only [step] at hstep
  split at hstep
  · cases hstep
  · rename_i v b ttl hcall
    have henabled := hs.enabled hcall
    cases hstep
    refine ⟨fun v' b' hnow => custody_move (hs.custody v' b' hnow) rfl ?_, hs.messages,
      hs.scheduled, longEnough_update hs.ttl fun _ _ _ h => (nomatch h), hs.returned,
      fun hoff => ?_⟩
    · rw [hcall, offering_setIfAbsent, offering_none, sub_zero, add_zero]
      rfl
    · rw [henabled] at hoff
      cases hoff
  · rename_i v b hcall
    have henabled := hs.enabled hcall
    cases hstep
    refine ⟨fun v' b' hnow => custody_move (hs.custody v' b' hnow) rfl ?_, hs.messages,
      hs.scheduled, longEnough_update hs.ttl fun _ _ _ h => (nomatch h), hs.returned,
      fun hoff => ?_⟩
    · rw [hcall, offering_offer, offering_none]
      simp only [missing, List.count_cons, beq_iff_eq, Prod.mk.injEq, eq_comm (a := v),
        eq_comm (a := b)]
      by_cases hpair : v' = v ∧ b' = b
      · simp only [if_pos hpair]
        omega
      · simp only [if_neg hpair]
        omega
    · rw [henabled] at hoff
      cases hoff

theorem invariant_fire (hs : Invariant properties s)
    (hstep : step properties vouchers s .fire = some t) : Invariant properties t := by
  obtain ⟨reminders, hfire, hstep⟩ := Option.map_eq_some_iff.mp hstep
  cases hstep
  obtain ⟨hscheduled, hperm⟩ := fire_queued hfire
  refine ⟨fun v' b' hnow => ?_, fun m hm => hs.messages m (hperm.mem_iff.mp hm),
    fun v' b' deadline hkey => hs.scheduled v' b' deadline (hscheduled ▸ hkey), hs.ttl,
    fun henabled v' b' hmem hnow => ?_, fun hoff => ?_⟩
  · have hcustody := hs.custody v' b' hnow
    unfold Custody missing at hcustody ⊢
    simp only [hscheduled, hperm.count_eq]
    exact hcustody
  · simp only [hscheduled]
    exact hs.returned henabled v' b' hmem hnow
  · simp only [hscheduled]
    exact hs.disabled hoff

/-- `handleReminder` publishes the reminder of the message, or drops it. -/
theorem invariant_handle {reads : ReminderReads} (hs : Invariant properties s)
    (hstep : step properties vouchers s (.handle reads) = some t) : Invariant properties t := by
  obtain ⟨⟨message, reminders⟩, hpoll, hstep⟩ := Option.map_eq_some_iff.mp hstep
  obtain ⟨hscheduled, hperm⟩ := poll_queued hpoll
  obtain ⟨v, b, rfl⟩ := hs.messages message (hperm.mem_iff.mpr List.mem_cons_self)
  have hmoved : t.calls = s.calls ∧ t.now = s.now ∧ t.returned = s.returned ∧
      t.reminders = reminders ∧ ∀ v' b',
      (t.published.map Prod.fst).count (v', b') + t.lost.count (v', b') =
        (s.published.map Prod.fst).count (v', b') + s.lost.count (v', b') +
          if (v, b) = (v', b') then 1 else 0 := by
    split at hstep
    · rename_i reminder hpublished
      cases hstep
      have hpair := (handleReminder_eq_some.mp hpublished).1
      rw [parseReminder_message] at hpair
      refine ⟨rfl, rfl, rfl, rfl, fun v' b' => ?_⟩
      simp only [List.map_cons, ← Option.some.inj hpair, List.count_cons, beq_iff_eq]
      omega
    · cases hstep
      refine ⟨rfl, rfl, rfl, rfl, fun v' b' => ?_⟩
      simp only [parseReminder_message, Option.toList_some, List.singleton_append, List.count_cons,
        beq_iff_eq]
      omega
  obtain ⟨hcalls, hnow, hreturned, hreminders, hcount⟩ := hmoved
  refine ⟨fun v' b' hfuture => ?_, fun m hm => ?_, fun v' b' deadline hkey => ?_, fun c => ?_,
    fun henabled v' b' hmem hfuture => ?_, fun hoff => ?_⟩
  · have hcustody := hs.custody v' b' (hnow ▸ hfuture)
    unfold Custody at hcustody ⊢
    have hsame : missing v' b' t = missing v' b' s := by
      have hone := hcount v' b'
      simp only [missing, hreminders, hscheduled, hperm.count_eq, List.count_cons, beq_iff_eq,
        reminderMessage_inj]
      by_cases hpair : (v, b) = (v', b')
      · simp only [if_pos hpair] at hone ⊢
        omega
      · simp only [if_neg hpair] at hone ⊢
        omega
    rw [hcalls, hsame]
    exact hcustody
  · rw [hreminders] at hm
    exact hs.messages m (hperm.mem_iff.mpr (List.mem_cons_of_mem _ hm))
  · rw [hreminders, hscheduled] at hkey
    exact hs.scheduled v' b' deadline hkey
  · rw [hcalls, hnow]
    exact hs.ttl c
  · rw [hreminders, hscheduled]
    exact hs.returned henabled v' b' (hreturned ▸ hmem) (hnow ▸ hfuture)
  · rw [hreminders, hscheduled, hcalls]
    exact hs.disabled hoff

/-- **The invariant is kept**, the custody of every message with it. -/
theorem invariant_step {a : Action Caller} (hs : Invariant properties s)
    (hstep : step properties vouchers s a = some t) : Invariant properties t := by
  cases a with
  | tick now =>
    simp only [step] at hstep
    split at hstep
    · rename_i hlater
      cases hstep
      refine ⟨fun v b hnow => hs.custody v b (hlater.trans_lt hnow), hs.messages, hs.scheduled,
        fun c v b ttl hcall => ?_, fun henabled v b hmem hnow => ?_, hs.disabled⟩
      · exact (hs.ttl c v b ttl hcall).trans_le (Int.add_le_add_right hlater ttl)
      · exact hs.returned henabled v b hmem (hlater.trans_lt hnow)
    · cases hstep
  | commit v beginAt =>
    cases hstep
    exact ⟨hs.custody, hs.messages, hs.scheduled, hs.ttl, hs.returned, hs.disabled⟩
  | start c voucherId beginTime => exact invariant_start hs hstep
  | next c =>
    obtain hcall | ⟨⟨v, b, _ | _⟩, hcall⟩ := Option.eq_none_or_eq_some (s.calls c)
    · simp [step, hcall] at hstep
    · exact invariant_setIfAbsent hs hcall hstep
    · exact invariant_offer hs hcall hstep
  | fail c => exact invariant_fail hs hstep
  | fire => exact invariant_fire hs hstep
  | handle reads => exact invariant_handle hs hstep

omit [DecidableEq Caller] in
theorem invariant_init (now : ℤ) (beginTime : VoucherId → Option Long) :
    Invariant properties (State.init now beginTime : State Caller) := by
  refine ⟨fun v b _ => InFlight.of_forall fun c => ?_, fun m hm => ?_, fun v b d hkey => ?_,
    fun c v b ttl hcall => ?_, fun _ v b hmem => ?_, fun _ => ⟨fun _ => rfl, fun _ _ => rfl⟩⟩
  · simp [State.init, offering]
  · cases hm
  · cases hkey
  · cases hcall
  · cases hmem

end Invariant

end Hmdp.Reminder
