import Hmdp.Reminder.Custody
import Mathlib.Data.Fintype.Basic

/-!
# A future activity keeps its reminder

Of a begin time that is the committed one and to come, and for which a call of `schedule` has
returned, the message is queued or the reminder published (`Kept`), unless the message is gone while
its marker is there: then the next `schedule` returns without one.

* **`kept_step`**: a step keeps every reminder exactly if it meets the condition `Holds`.
* **`reminders_kept_iff`**: the same for whole runs.
-/

namespace Hmdp.Reminder

open Hmdp.Lib Hmdp.Model

variable {Caller : Type} [DecidableEq Caller]

/-! ## The reminders -/

/-- The begin time is the committed one, and to come. -/
def Current (v : VoucherId) (b : Long) (s : State Caller) : Prop :=
  s.beginTime v = some b ∧ s.now < b.toInt

instance (v : VoucherId) (b : Long) (s : State Caller) : Decidable (Current v b s) := by
  unfold Current
  infer_instance

/-- The activity that has been scheduled gets its reminder, or has got it. -/
def Kept (v : VoucherId) (b : Long) (s : State Caller) : Prop :=
  (v, b) ∈ s.returned → Current v b s → Reminded v b s

/-- `handleReminder` gets as far as to publish: the row of the voucher is there, and the top buyer
query does not throw. -/
def Publishes (properties : ReminderProperties) (vouchers : VoucherId → Option VoucherRow)
    (reads : ReminderReads) (v : VoucherId) : Prop :=
  ∃ voucher ∈ vouchers v, (audience properties reads v voucher).isSome = true

instance (properties : ReminderProperties) (vouchers : VoucherId → Option VoucherRow)
    (reads : ReminderReads) (v : VoucherId) :
    Decidable (Publishes properties vouchers reads v) := by
  unfold Publishes
  infer_instance

/-- **The condition on a step.** Of the current and future begin time of an activity: a call that
comes to its `setIfAbsent` finds the message neither lost nor still to be offered; a begin time for
which a call has returned is not committed again when its message is; a call is made with reminders
on; and the reminder of an activity that has been scheduled can be published when its message comes.
-/
def Holds (properties : ReminderProperties) (vouchers : VoucherId → Option VoucherRow)
    (s : State Caller) : Action Caller → Prop
  | .start _ (some v) (some b) => Current v b s → properties.enabled = true
  | .commit v b =>
    (v, b) ∈ s.returned → s.now < b.toInt → properties.enabled = true ∧ ¬ Gone v b s
  | .next c =>
    match s.calls c with
    | some ⟨v, b, .setIfAbsent _⟩ => Current v b s → ¬ Gone v b s
    | _ => True
  | .handle reads =>
    match s.reminders.ready with
    | message :: _ => ∀ pair ∈ parseReminder message, pair ∈ s.returned →
        Current pair.1 pair.2 s → Publishes properties vouchers reads pair.1
    | [] => True
  | _ => True

section Kept

variable {properties : ReminderProperties} {vouchers : VoucherId → Option VoucherRow}
  {s t : State Caller} {v : VoucherId} {b : Long} {c : Caller}

omit [DecidableEq Caller] in
/-- A step that returns from no call for the pair, keeps its begin time and takes no message of
it. -/
theorem kept_mono (hs : Kept v b s) (hreturned : (v, b) ∈ t.returned → (v, b) ∈ s.returned)
    (hcurrent : Current v b t → Current v b s) (hreminded : Reminded v b s → Reminded v b t) :
    Kept v b t :=
  fun hmem hnow => hreminded (hs (hreturned hmem) (hcurrent hnow))

omit [DecidableEq Caller] in
/-- For a begin time to come, a call that has returned leaves a message unless reminders are off or
the message is gone. -/
theorem reminded_iff_of_returned (hs : Invariant properties s) (hmem : (v, b) ∈ s.returned)
    (hnow : s.now < b.toInt) :
    Reminded v b s ↔ properties.enabled = true ∧ ¬ Gone v b s := by
  by_cases henabled : properties.enabled = true
  · rw [reminded_iff_not_gone (hs.custody v b hnow) (hs.returned henabled v b hmem hnow),
      and_iff_right henabled]
  · have hnone := (hs.disabled (Bool.not_eq_true _ ▸ henabled)).2 v b
    exact iff_of_false (not_reminded_of_unscheduled (hs.custody v b hnow) hnone).1
      fun h => henabled h.1

theorem kept_commit (hs : Invariant properties s) (hk : ∀ v b, Kept v b s)
    (hstep : step properties vouchers s (.commit v b) = some t) :
    (∀ v b, Kept v b t) ↔ Holds properties vouchers s (.commit v b) := by
  cases hstep
  constructor
  · intro h hmem hnow
    exact (reminded_iff_of_returned hs hmem hnow).mp
      (h v b hmem ⟨Function.update_self _ _ _, hnow⟩)
  · intro h v' b' hmem hcurrent
    obtain ⟨hbegin, hnow⟩ : Function.update s.beginTime v (some b) v' = some b' ∧
      s.now < b'.toInt := hcurrent
    by_cases hv : v' = v
    · subst hv
      rw [Function.update_self] at hbegin
      cases hbegin
      exact (reminded_iff_of_returned hs hmem hnow).mpr (h hmem hnow)
    · rw [Function.update_of_ne hv] at hbegin
      exact hk v' b' hmem ⟨hbegin, hnow⟩

theorem kept_start {voucherId : Option VoucherId} {beginTime : Option Long}
    (hs : Invariant properties s) (hk : ∀ v b, Kept v b s)
    (hstep : step properties vouchers s (.start c voucherId beginTime) = some t) :
    (∀ v b, Kept v b t) ↔ Holds properties vouchers s (.start c voucherId beginTime) := by
  simp only [step] at hstep
  split at hstep
  swap
  · cases hstep
  split at hstep
  · rename_i hreturns
    cases hstep
    constructor
    · intro h
      unfold Holds
      split
      · rename_i v b heq
        cases heq
        intro hcurrent
        have hreminded : Reminded v b s := h v b List.mem_cons_self hcurrent
        by_contra hoff
        have hnone := (hs.disabled (Bool.not_eq_true _ ▸ hoff)).2 v b
        exact (not_reminded_of_unscheduled (hs.custody v b hcurrent.2) hnone).1 hreminded
      · rename_i heq
        cases heq
      · rename_i heq
        cases heq
      · rename_i heq
        cases heq
      · trivial
    · intro h v' b' hmem hcurrent
      obtain hmem | hmem := List.mem_append.mp hmem
      · obtain ⟨rfl, rfl⟩ := mem_pairOf.mp hmem
        have hpast := scheduleTtl_eq_none hreturns (h hcurrent)
        exact absurd hcurrent.2 (not_lt.mpr hpast)
      · exact hk v' b' hmem hcurrent
  · rename_i v b ttl hgoes
    cases hstep
    have henabled := (scheduleTtl_eq_some hgoes).1
    refine iff_of_true hk ?_
    cases voucherId <;> cases beginTime <;> first | trivial | exact fun _ => henabled

theorem kept_setIfAbsent {ttl : ℤ} (hs : Invariant properties s) (hk : ∀ v b, Kept v b s)
    (hcall : s.calls c = some ⟨v, b, .setIfAbsent ttl⟩)
    (hstep : step properties vouchers s (.next c) = some t) :
    (∀ v b, Kept v b t) ↔ Holds properties vouchers s (.next c) := by
  simp only [step, hcall] at hstep
  simp only [Holds, hcall]
  obtain ⟨deadline, hkey, -, hfound⟩ | ⟨hdead, hset⟩ :=
    setIfAbsent_cases s.reminders s.now v b ttl
  · rw [hfound] at hstep
    cases hstep
    have hthere : s.now < b.toInt → (Reminded v b s ↔ ¬ Gone v b s) := fun hnow =>
      reminded_iff_not_gone (hs.custody v b hnow) (by rw [hkey, Option.isSome_some])
    constructor
    · exact fun h hcurrent => (hthere hcurrent.2).mp (h v b List.mem_cons_self hcurrent)
    · intro h v' b' hmem hcurrent
      obtain heq | hmem := List.mem_cons.mp hmem
      · cases heq
        exact (hthere hcurrent.2).mpr (h hcurrent)
      · exact hk v' b' hmem hcurrent
  · rw [hset] at hstep
    cases hstep
    refine iff_of_true hk fun hcurrent => ?_
    have hnone : s.reminders.scheduled v b = none :=
      Option.eq_none_iff_forall_ne_some.mpr fun deadline hkey => by
        have := hs.scheduled v b deadline hkey
        have := hdead deadline hkey
        have := hcurrent.2
        omega
    exact (not_reminded_of_unscheduled (hs.custody v b hcurrent.2) hnone).2

/-- An offer leaves the message in the queue. -/
theorem kept_offer (hk : ∀ v b, Kept v b s) (hcall : s.calls c = some ⟨v, b, .offer⟩)
    (hstep : step properties vouchers s (.next c) = some t) : ∀ v b, Kept v b t := by
  simp only [step, hcall] at hstep
  cases hstep
  intro v' b' hmem hcurrent
  obtain heq | hmem := List.mem_cons.mp hmem
  · cases heq
    refine Or.inl (List.count_pos_iff.mp ?_)
    rw [count_offer, if_pos rfl]
    omega
  · refine (hk v' b' hmem hcurrent).imp_left fun hqueued => List.count_pos_iff.mp ?_
    rw [count_offer]
    have := List.count_pos_iff.mpr hqueued
    omega

/-- `handleReminder` of a message that was offered. -/
theorem handleReminder_isSome {beginTime : VoucherId → Option Long} {now : ℤ}
    {reads : ReminderReads} :
    (handleReminder properties vouchers beginTime now reads (reminderMessage v b)).isSome = true ↔
      beginTime v = some b ∧ now < b.toInt ∧ Publishes properties vouchers reads v := by
  constructor
  · intro h
    obtain ⟨⟨⟨v', b'⟩, notifications⟩, hreminder⟩ := Option.isSome_iff_exists.mp h
    obtain ⟨hpair, hbegin, hnow, voucher, users, hvoucher, husers, -⟩ :=
      handleReminder_eq_some.mp hreminder
    rw [parseReminder_message] at hpair
    cases hpair
    exact ⟨hbegin, hnow, voucher, hvoucher, by rw [husers, Option.isSome_some]⟩
  · rintro ⟨hbegin, hnow, voucher, hvoucher, hsome⟩
    obtain ⟨users, husers⟩ := Option.isSome_iff_exists.mp hsome
    refine Option.isSome_iff_exists.mpr ⟨((v, b), publishAll reads.accepts
      properties.audienceLimit.toInt (reminderNotification v b voucher) 0 users.elements), ?_⟩
    exact handleReminder_eq_some.mpr
      ⟨parseReminder_message v b, hbegin, hnow, voucher, users, hvoucher, husers, rfl⟩

/-- A message that is taken leaves the reminders of the other pairs. -/
theorem kept_handle {reads : ReminderReads} (hs : Invariant properties s)
    (hk : ∀ v b, Kept v b s) (hstep : step properties vouchers s (.handle reads) = some t) :
    (∀ v b, Kept v b t) ↔ Holds properties vouchers s (.handle reads) := by
  have ht := invariant_step hs hstep
  obtain ⟨⟨message, reminders⟩, hpoll, hstep⟩ := Option.map_eq_some_iff.mp hstep
  obtain ⟨hscheduled, hperm⟩ := poll_queued hpoll
  obtain ⟨v, b, rfl⟩ := hs.messages message (hperm.mem_iff.mpr List.mem_cons_self)
  have hhead : Holds properties vouchers s (.handle reads) ↔
      ((v, b) ∈ s.returned → Current v b s → Publishes properties vouchers reads v) := by
    unfold Reminders.poll at hpoll
    split at hpoll
    · cases hpoll
    · rename_i first rest hready
      cases hpoll
      simp [Holds, hready]
  rw [hhead]
  have hother : ∀ v' b', (v', b') ≠ (v, b) →
      reminderMessage v' b' ∈ s.reminders.queued → reminderMessage v' b' ∈ reminders.queued := by
    intro v' b' hne hqueued
    obtain heq | hrest := List.mem_cons.mp (hperm.mem_iff.mp hqueued)
    · exact absurd (reminderMessage_inj.mp heq) hne
    · exact hrest
  have hsome := @handleReminder_isSome properties vouchers v b s.beginTime s.now reads
  split at hstep
  · rename_i reminder hpublished
    cases hstep
    rw [hpublished, Option.isSome_some, eq_self, true_iff] at hsome
    refine iff_of_true (fun v' b' hmem hcurrent => ?_) fun _ _ => hsome.2.2
    by_cases hpair : (v', b') = (v, b)
    · have hread := (handleReminder_eq_some.mp hpublished).1
      rw [parseReminder_message, ← hpair] at hread
      exact Or.inr (List.mem_map.mpr ⟨reminder, List.mem_cons_self, (Option.some.inj hread).symm⟩)
    · exact (hk v' b' hmem hcurrent).imp (hother v' b' hpair) fun hmem =>
        (List.map_cons ▸ List.mem_cons_of_mem _ hmem)
  · rename_i hdropped
    cases hstep
    rw [hdropped, Option.isSome_none, Bool.false_eq_true, false_iff] at hsome
    constructor
    · intro h hmem hcurrent
      -- the message is lost now, and was the only one
      have hreminded := h v b hmem hcurrent
      have hscheduled' : (s.reminders.scheduled v b).isSome = true := by
        by_contra hnone
        have hnone : s.reminders.scheduled v b = none := by simpa using hnone
        exact (not_reminded_of_unscheduled (hs.custody v b hcurrent.2) hnone).1
          (hk v b hmem hcurrent)
      have hgone := (reminded_iff_not_gone (ht.custody v b hcurrent.2) (by
        show (reminders.scheduled v b).isSome = true
        rw [hscheduled, hscheduled'])).mp hreminded
      refine absurd (Or.inl ?_) hgone
      rw [parseReminder_message]
      exact List.mem_cons_self
    · intro h v' b' hmem hcurrent
      by_cases hpair : (v', b') = (v, b)
      · cases hpair
        exact absurd ⟨hcurrent.1, hcurrent.2, h hmem hcurrent⟩ hsome
      · exact (hk v' b' hmem hcurrent).imp_left (hother v' b' hpair)

/-- **The step lemma**: a step keeps every reminder exactly if it meets the condition. -/
theorem kept_step {a : Action Caller} (hs : Invariant properties s) (hk : ∀ v b, Kept v b s)
    (hstep : step properties vouchers s a = some t) :
    (∀ v b, Kept v b t) ↔ Holds properties vouchers s a := by
  cases a with
  | tick now =>
    simp only [step] at hstep
    split at hstep
    · rename_i hlater
      cases hstep
      exact iff_of_true (fun v b => kept_mono (hk v b) id
        (fun hcurrent => ⟨hcurrent.1, hlater.trans_lt hcurrent.2⟩) id) trivial
    · cases hstep
  | commit v beginAt => exact kept_commit hs hk hstep
  | start c voucherId beginTime => exact kept_start hs hk hstep
  | next c =>
    obtain hcall | ⟨⟨v, b, _ | _⟩, hcall⟩ := Option.eq_none_or_eq_some (s.calls c)
    · simp [step, hcall] at hstep
    · exact kept_setIfAbsent hs hk hcall hstep
    · refine iff_of_true (kept_offer hk hcall hstep) ?_
      simp only [Holds, hcall]
  | fail c =>
    refine iff_of_true ?_ trivial
    simp only [step] at hstep
    split at hstep <;> cases hstep <;> exact hk
  | fire =>
    obtain ⟨reminders, hfire, hstep⟩ := Option.map_eq_some_iff.mp hstep
    cases hstep
    exact iff_of_true (fun v b => kept_mono (hk v b) id id fun hreminded =>
      hreminded.imp_left (fire_queued hfire).2.mem_iff.mpr) trivial
  | handle reads => exact kept_handle hs hk hstep

end Kept

/-- **The reminders are kept.** In every state a run reaches, an activity whose `schedule` has
returned, and whose begin time is the committed one and to come, has its message in one of the
queues or its reminder published, exactly if the steps of the run all meet the condition. -/
theorem reminders_kept_iff {properties : ReminderProperties}
    {vouchers : VoucherId → Option VoucherRow} {now : ℤ} {beginTime : VoucherId → Option Long}
    {t : State Caller} {actions : List (Action Caller)}
    (hrun : run (step properties vouchers) (.init now beginTime) actions = some t) :
    Along (step properties vouchers) (Holds properties vouchers) (.init now beginTime) actions ↔
      ∀ before s, before <+: actions →
        run (step properties vouchers) (.init now beginTime) before = some s →
          ∀ v b, Kept v b s :=
  along_iff_invariant (fun _ _ _ _ hs hstep => invariant_step hs hstep)
    (fun _ _ _ hs hk hstep => kept_step hs hk hstep) (invariant_init now beginTime)
    (fun _ _ hmem => nomatch hmem) hrun

/-! ## Runs -/

instance (v : VoucherId) (b : Long) (s : State Bool) : Decidable (Gone v b s) := by
  unfold Gone
  infer_instance

instance (v : VoucherId) (b : Long) (s : State Bool) : Decidable (Reminded v b s) := by
  unfold Reminded
  infer_instance

instance (v : VoucherId) (b : Long) (s : State Bool) : Decidable (Kept v b s) := by
  unfold Kept
  infer_instance

instance (properties : ReminderProperties) (vouchers : VoucherId → Option VoucherRow)
    (s : State Bool) (a : Action Bool) : Decidable (Holds properties vouchers s a) := by
  unfold Holds
  split
  · infer_instance
  · infer_instance
  · split <;> infer_instance
  · split <;> infer_instance
  · infer_instance

/-- The defaults of `SeckillMarketingProperties`. -/
def defaults : ReminderProperties := ⟨true, 120, 500, 30, 200, 1, 200⟩

/-- The voucher 1, of no shop. -/
def oneVoucher (v : VoucherId) : Option VoucherRow :=
  if v = 1 then some ⟨"100元代金券".toList, none⟩ else none

/-- The user 7 has subscribed. -/
def oneSubscriber : ReminderReads where
  subscriptions := { Subscriptions.empty with queue := fun _ => ZSet.empty.zadd 5 (Long.toText 7) }
  topBuyers := .empty
  users := ⟨fun _ => none, fun _ => none⟩
  today _ := 0
  selectVipUserIds _ _ := some []
  accepts _ := true

/-- One o'clock. -/
def one : Long := 3600000

/-- Two o'clock. -/
def two : Long := 7200000

/-- A begin time is committed and its `schedule` runs to its end. -/
def scheduling (b : Long) : List (Action Bool) :=
  [.commit 1 b, .start true (some 1) (some b), .next true, .next true]

/-- The activity is put off; its first message comes and is dropped, the second is published. -/
def putOff : List (Action Bool) :=
  scheduling one ++ scheduling two ++ [.tick 3480000, .fire, .handle oneSubscriber, .tick 7080000,
    .fire, .handle oneSubscriber]

theorem reminders_kept_iff_putOff :
    ∃ t : State Bool, run (step defaults oneVoucher) (.init 0 fun _ => none) putOff = some t ∧
      t.published = [((1, two),
        [reminderNotification 1 two ⟨"100元代金券".toList, none⟩ 7])] ∧
      ∀ before s, before <+: putOff →
        run (step defaults oneVoucher) (.init 0 fun _ => none) before = some s →
          ∀ v b, Kept v b s := by
  obtain ⟨t, hrun, hend⟩ := Option.map_eq_some_iff.mp
    (show (run (step defaults oneVoucher) (State.init 0 fun _ => none) putOff).map (fun t =>
      decide (t.published = [((1, two),
        [reminderNotification 1 two ⟨"100元代金券".toList, none⟩ 7])])) = some true
      by decide +kernel)
  exact ⟨t, hrun, of_decide_eq_true hend, (reminders_kept_iff hrun).mp (by decide +kernel)⟩

/-- A `schedule` fails after its marker, and its retry finds the marker. -/
def failedOffer : List (Action Bool) :=
  [.commit 1 one, .start true (some 1) (some one), .next true, .fail true,
    .start true (some 1) (some one), .next true]

/-- The activity is put off, its first message comes, and it is put back. -/
def putBack : List (Action Bool) :=
  scheduling one ++ scheduling two ++ [.tick 3480000, .fire, .handle oneSubscriber, .commit 1 one,
    .start true (some 1) (some one), .next true]

theorem reminder_missed :
    (¬ ∀ (actions : List (Action Bool)) (t : State Bool),
      run (step defaults oneVoucher) (.init 0 fun _ => none) actions = some t →
        ∀ v b, Kept v b t) ∧
    ¬ ∀ (actions : List (Action Bool)) (t : State Bool), (∀ c, Action.fail c ∉ actions) →
      run (step defaults oneVoucher) (.init 0 fun _ => none) actions = some t →
        ∀ v b, Kept v b t := by
  constructor
  · intro h
    obtain ⟨t, hrun, hend⟩ := Option.map_eq_some_iff.mp
      (show (run (step defaults oneVoucher) (State.init 0 fun _ => none) failedOffer).map
        (fun t => decide (¬ Kept 1 one t)) = some true by decide +kernel)
    exact of_decide_eq_true hend (h failedOffer t hrun 1 one)
  · intro h
    obtain ⟨t, hrun, hend⟩ := Option.map_eq_some_iff.mp
      (show (run (step defaults oneVoucher) (State.init 0 fun _ => none) putBack).map
        (fun t => decide (¬ Kept 1 one t)) = some true by decide +kernel)
    refine of_decide_eq_true hend (h putBack t (fun c hmem => ?_) hrun 1 one)
    simp [putBack, scheduling] at hmem

end Hmdp.Reminder
