import Hmdp.Model.Dispatch

/-!
# Does each event get its own verdict?

Every event of a batch is settled by one update, by `markSentBatch` iff its send was acknowledged
and otherwise with the backoff of its own retry count (`settled_once`, `inGroup_settleAll`,
`settledRow_mem`). But `lastError` is one variable for the whole batch: every failed event is
stored with the description of the failure that came last (`wrong_last_error`), where the
sibling relays, which settle event by event, store its own.

**`ownVerdicts_iff`** is exact: every row gets its own verdict iff all failures of the batch have
one description.
-/

namespace Hmdp.Outbox

open Hmdp.Lib Hmdp.Model Hmdp.Model.SeckillOrderOutboxRelay

variable {config : RelayConfig} {backoff : RetryBackoff} {owner : Text} {clock : Clock}
  {sends : List (OutboxRow × SendOutcome)} {db : Db}

/-! ## What is proved -/

/-- The events are claimed: the rows are the relay's and still waiting. -/
def Claimed (owner : Text) (sends : List (OutboxRow × SendOutcome)) (db : Db) : Prop :=
  ∀ send ∈ sends, send.1 ∈ db.outbox.rows ∧ send.1.relayOwner = some owner ∧
    send.1.backlog = true

/-- The row of an event whose send was acknowledged. -/
def sentRow (config : RelayConfig) (clock : Clock) (e : OutboxRow) : OutboxRow :=
  { e with
    status := .sent, sentTime := some clock.sentNow,
    nextRetryTime := clock.sentLocal + config.sentRecheckSeconds, updatedTime := clock.sentNow,
    lastError := none, relayOwner := none, relayLeaseUntil := none }

/-- The row of an event that is to be sent again after so many seconds. -/
def retriedRow (clock : Clock) (error : Text) (seconds : ℤ) (e : OutboxRow) : OutboxRow :=
  { e with
    retryCount := e.retryCount + 1, nextRetryTime := clock.retryLocal seconds + seconds,
    lastError := some error, updatedTime := clock.retryNow seconds, relayOwner := none,
    relayLeaseUntil := none }

/-- The verdict on one event, by its own send and its own retry count. -/
def verdict (config : RelayConfig) (clock : Clock) (send : OutboxRow × SendOutcome) : OutboxRow :=
  match send.2.failure with
  | none => sentRow config clock send.1
  | some failure =>
    retriedRow clock (describe failure) (config.backoff.seconds send.1.retryCount) send.1

/-- Every row of the batch gets its own verdict. -/
def OwnVerdicts (config : RelayConfig) (owner : Text) (clock : Clock)
    (sends : List (OutboxRow × SendOutcome)) (db : Db) : Prop :=
  ∀ send ∈ sends,
    verdict config clock send ∈ (dispatchBatch config owner clock sends db).outbox.rows

/-- All failures of the batch have one description. -/
def SameFailures (sends : List (OutboxRow × SendOutcome)) : Prop :=
  ∀ a ∈ sends, ∀ b ∈ sends, ∀ f g, a.2.failure = some f → b.2.failure = some g →
    describe f = describe g

/-- An id is in the group of a backoff. -/
def InGroup (groups : List (ℤ × List ℕ)) (seconds : ℤ) (id : ℕ) : Prop :=
  ∃ ids, (seconds, ids) ∈ groups ∧ id ∈ ids

/-! ## The loop over the sends -/

theorem inGroup_addFailed {groups : List (ℤ × List ℕ)} {seconds b : ℤ} {id i : ℕ} :
    InGroup (addFailed seconds id groups) b i ↔ InGroup groups b i ∨ b = seconds ∧ i = id := by
  induction groups with
  | nil =>
    unfold addFailed InGroup
    constructor
    · rintro ⟨ids, hmem, hi⟩
      cases List.mem_singleton.mp hmem
      exact Or.inr ⟨rfl, List.mem_singleton.mp hi⟩
    · rintro (⟨ids, hmem, -⟩ | ⟨rfl, rfl⟩)
      · exact absurd hmem (by simp)
      · exact ⟨[i], List.mem_singleton_self _, List.mem_singleton_self i⟩
  | cons group rest ih =>
    obtain ⟨c, cs⟩ := group
    have hcons : ∀ (gs : List (ℤ × List ℕ)) (ds : List ℕ),
        InGroup ((c, ds) :: gs) b i ↔ (b = c ∧ i ∈ ds) ∨ InGroup gs b i := by
      intro gs ds
      unfold InGroup
      constructor
      · rintro ⟨ids, hmem, hi⟩
        rcases List.mem_cons.mp hmem with he | hmem
        · cases he
          exact Or.inl ⟨rfl, hi⟩
        · exact Or.inr ⟨ids, hmem, hi⟩
      · rintro (⟨rfl, hi⟩ | ⟨ids, hmem, hi⟩)
        · exact ⟨ds, List.mem_cons_self, hi⟩
        · exact ⟨ids, List.mem_cons_of_mem _ hmem, hi⟩
    unfold addFailed
    split
    · rename_i hc
      rw [hcons, hcons, List.mem_append, List.mem_singleton, ← hc]
      tauto
    · rw [hcons, hcons, ih]
      tauto

theorem sentIds_foldl (acc : Settled) :
    (sends.foldl (settle backoff) acc).sentIds =
      acc.sentIds ++
        (sends.filter fun send => send.2.failure.isNone).map fun send => send.1.id := by
  induction sends generalizing acc with
  | nil => simp
  | cons send sends ih =>
    rw [List.foldl_cons, ih, settle]
    cases h : send.2.failure with
    | none => simp [h]
    | some f => simp [h]

theorem failedIds_foldl (acc : Settled) :
    (failedIds (sends.foldl (settle backoff) acc).failedIdsByBackoff).Perm
      (failedIds acc.failedIdsByBackoff ++
        (sends.filter fun send => send.2.failure.isSome).map fun send => send.1.id) := by
  induction sends generalizing acc with
  | nil => simp
  | cons send sends ih =>
    rw [List.foldl_cons]
    refine (ih _).trans ?_
    rw [settle]
    cases h : send.2.failure with
    | none => simp [h]
    | some f =>
      rw [List.filter_cons_of_pos (by simp [h]), List.map_cons,
        List.append_cons (failedIds acc.failedIdsByBackoff)]
      exact (failedIds_addFailed _ _ _).append_right _

theorem inGroup_foldl (acc : Settled) {b : ℤ} {i : ℕ} :
    InGroup (sends.foldl (settle backoff) acc).failedIdsByBackoff b i ↔
      InGroup acc.failedIdsByBackoff b i ∨ ∃ send ∈ sends, send.2.failure.isSome ∧
        b = backoff.seconds send.1.retryCount ∧ i = send.1.id := by
  induction sends generalizing acc with
  | nil => simp
  | cons send sends ih =>
    rw [List.foldl_cons, ih, settle, List.exists_mem_cons_iff]
    cases h : send.2.failure with
    | none => simp
    | some f =>
      simp only [inGroup_addFailed, Option.isSome_some, true_and]
      rw [or_assoc]

/-- **`lastError` is the description of some failure of the batch.** -/
theorem lastError_foldl (acc : Settled) :
    (∃ send ∈ sends, ∃ f, send.2.failure = some f ∧
        (sends.foldl (settle backoff) acc).lastError = some (describe f)) ∨
      (∀ send ∈ sends, send.2.failure = none) ∧
        (sends.foldl (settle backoff) acc).lastError = acc.lastError := by
  induction sends generalizing acc with
  | nil => exact Or.inr ⟨by simp, rfl⟩
  | cons send sends ih =>
    rw [List.foldl_cons]
    rcases ih (settle backoff acc send) with ⟨x, hx, f, hf, hlast⟩ | ⟨hnone, hlast⟩
    · exact Or.inl ⟨x, List.mem_cons_of_mem _ hx, f, hf, hlast⟩
    · rw [hlast, settle]
      cases h : send.2.failure with
      | none =>
        refine Or.inr ⟨fun x hx => ?_, rfl⟩
        rcases List.mem_cons.mp hx with rfl | hx
        · exact h
        · exact hnone x hx
      | some f => exact Or.inl ⟨send, List.mem_cons_self, f, h, rfl⟩

/-- **Every event is settled once**: the ids of the updates are those of the batch, and those of
`markSentBatch` are the acknowledged ones. -/
theorem settled_once (backoff : RetryBackoff) (sends : List (OutboxRow × SendOutcome)) :
    ((settleAll backoff sends).sentIds ++
        failedIds (settleAll backoff sends).failedIdsByBackoff).Perm
      (sends.map fun send => send.1.id) := by
  unfold settleAll
  rw [sentIds_foldl]
  refine ((failedIds_foldl _).append_left _).trans ?_
  simp only [List.nil_append, failedIds, List.flatMap_nil]
  rw [← List.map_append]
  refine List.Perm.map _ ?_
  have hnot : (fun send : OutboxRow × SendOutcome => send.2.failure.isSome) =
      fun send => !send.2.failure.isNone := by
    funext send
    cases send.2.failure <;> rfl
  rw [hnot]
  exact List.filter_append_perm _ sends

theorem failure_eq_none_iff {o : SendOutcome} : o.failure = none ↔ o = .acknowledged := by
  cases o <;> simp [SendOutcome.failure]

theorem mem_sentIds (hids : (sends.map fun send => send.1.id).Nodup)
    {send : OutboxRow × SendOutcome} (hsend : send ∈ sends) :
    send.1.id ∈ (settleAll backoff sends).sentIds ↔ send.2.failure = none := by
  unfold settleAll
  rw [sentIds_foldl, List.nil_append, List.mem_map]
  constructor
  · rintro ⟨x, hx, he⟩
    obtain ⟨hx, hnone⟩ := List.mem_filter.mp hx
    rw [← List.inj_on_of_nodup_map hids hx hsend he]
    simpa using hnone
  · intro hnone
    exact ⟨send, List.mem_filter.mpr ⟨hsend, by simp [hnone]⟩, rfl⟩

/-! ## The updates -/

/-- What the retries do to one row. -/
def scheduleRow (owner : Text) (clock : Clock) (error : Text) :
    List (ℤ × List ℕ) → OutboxRow → OutboxRow
  | [], e => e
  | (seconds, ids) :: rest, e =>
    scheduleRow owner clock error rest
      (if e.relayOwner = some owner ∧ e.id ∈ ids ∧ e.backlog = true then
        retriedRow clock error seconds e
      else e)

theorem scheduleRetries_rows (error : Text) (groups : List (ℤ × List ℕ)) (db : Db) :
    (scheduleRetries owner clock error groups db).outbox.rows =
      db.outbox.rows.map (scheduleRow owner clock error groups) := by
  induction groups generalizing db with
  | nil => exact (List.map_id' _).symm
  | cons group rest ih =>
    obtain ⟨seconds, ids⟩ := group
    rw [scheduleRetries, ih]
    show (db.outbox.rows.map _).map _ = _
    rw [List.map_map]
    refine List.map_congr_left fun e _ => ?_
    simp only [Function.comp_apply, scheduleRow, Bool.and_eq_true, decide_eq_true_eq, and_assoc]
    rfl

/-- Rows of others stay. -/
theorem scheduleRow_of_not_owned {error : Text} {groups : List (ℤ × List ℕ)} {e : OutboxRow}
    (h : e.relayOwner ≠ some owner) : scheduleRow owner clock error groups e = e := by
  induction groups with
  | nil => rfl
  | cons group rest ih =>
    obtain ⟨seconds, ids⟩ := group
    rw [scheduleRow, if_neg fun hc => h hc.1]
    exact ih

/-- **A row in the group of a backoff is scheduled with that backoff.** -/
theorem scheduleRow_of_inGroup {error : Text} {groups : List (ℤ × List ℕ)} {e : OutboxRow}
    {seconds : ℤ} (hids : (failedIds groups).Nodup) (hgroup : InGroup groups seconds e.id)
    (howner : e.relayOwner = some owner) (hback : e.backlog = true) :
    scheduleRow owner clock error groups e = retriedRow clock error seconds e := by
  obtain ⟨ids, hmem, hid⟩ := hgroup
  induction groups with
  | nil => exact absurd hmem (by simp)
  | cons group rest ih =>
    obtain ⟨b, bs⟩ := group
    simp only [failedIds, List.flatMap_cons] at hids
    obtain ⟨-, hrest, hdisj⟩ := List.nodup_append.mp hids
    rcases List.mem_cons.mp hmem with heq | hmem
    · cases heq
      rw [scheduleRow, if_pos ⟨howner, hid, hback⟩]
      exact scheduleRow_of_not_owned (by simp [retriedRow])
    · -- the row is in a later group, so not in this one
      have hnot : e.id ∉ bs := by
        intro hb
        exact hdisj e.id hb e.id (List.mem_flatMap.mpr ⟨_, hmem, hid⟩) rfl
      rw [scheduleRow, if_neg fun hc => hnot hc.2.1]
      exact ih hrest hmem

/-- **Which row an event ends up with**: `error` is what `lastError` holds. -/
theorem settledRow_mem (hids : (sends.map fun send => send.1.id).Nodup)
    (hclaimed : Claimed owner sends db) {send : OutboxRow × SendOutcome} (hsend : send ∈ sends) :
    (send.2.failure = none →
      sentRow config clock send.1 ∈ (dispatchBatch config owner clock sends db).outbox.rows) ∧
    (send.2.failure.isSome → retriedRow clock ((settleAll config.backoff sends).lastError.getD [])
        (config.backoff.seconds send.1.retryCount) send.1 ∈
      (dispatchBatch config owner clock sends db).outbox.rows) := by
  obtain ⟨hmem, howner, hback⟩ := hclaimed send hsend
  have honce := settled_once config.backoff sends
  have hnodup := honce.nodup_iff.mpr hids
  obtain ⟨-, hfailed, hdisj⟩ := List.nodup_append.mp hnodup
  have hsent := @mem_sentIds config.backoff sends hids send hsend
  unfold dispatchBatch
  simp only [scheduleRetries_rows]
  generalize hset : settleAll config.backoff sends = settled at *
  constructor
  · intro hnone
    have hid := hsent.mpr hnone
    rw [if_neg (List.ne_nil_of_mem hid)]
    refine List.mem_map.mpr ⟨sentRow config clock send.1, ?_,
      scheduleRow_of_not_owned (by simp [sentRow])⟩
    refine List.mem_map.mpr ⟨send.1, hmem, ?_⟩
    rw [if_pos (by simp [howner, hback, hid])]
    rfl
  · intro hsome
    have hid : send.1.id ∉ settled.sentIds := by
      rw [hsent]
      exact Option.isSome_iff_ne_none.mp hsome
    have hgroup : InGroup settled.failedIdsByBackoff (config.backoff.seconds send.1.retryCount)
        send.1.id := by
      rw [← hset]
      exact (inGroup_foldl _).mpr (Or.inr ⟨send, hsend, hsome, rfl, rfl⟩)
    refine List.mem_map.mpr ⟨send.1, ?_, scheduleRow_of_inGroup hfailed hgroup howner hback⟩
    split
    · exact hmem
    · refine List.mem_map.mpr ⟨send.1, hmem, ?_⟩
      rw [if_neg (by simp [hid])]

/-- Two rows of one id are one row. -/
theorem outbox_row_unique {a b : OutboxRow} (ha : a ∈ db.outbox.rows) (hb : b ∈ db.outbox.rows)
    (h : a.id = b.id) : a = b :=
  db.outbox.eq_of_clash ha hb (outboxKeys_clash.mpr (Or.inl h))

theorem ownVerdicts_iff_sameFailures (hids : (sends.map fun send => send.1.id).Nodup)
    (hclaimed : Claimed owner sends db) :
    OwnVerdicts config owner clock sends db ↔ SameFailures sends := by
  have hrows := fun {send} hsend =>
    @settledRow_mem config owner clock sends db hids hclaimed send hsend
  constructor
  · intro hown
    -- the row of a failed event holds `lastError`
    have hlast : ∀ a ∈ sends, ∀ f, a.2.failure = some f →
        describe f = (settleAll config.backoff sends).lastError.getD [] := by
      intro a ha f hf
      have hverdict := hown a ha
      unfold verdict at hverdict
      simp only [hf] at hverdict
      have hrow := (hrows ha).2 (by rw [hf]; rfl)
      have heq := outbox_row_unique hverdict hrow rfl
      exact Option.some.inj (congrArg (fun e => e.lastError) heq)
    intro a ha b hb f g hf hg
    rw [hlast a ha f hf, hlast b hb g hg]
  · intro hsame send hsend
    unfold verdict
    cases hf : send.2.failure with
    | none => exact (hrows hsend).1 hf
    | some f =>
      have hrow := (hrows hsend).2 (by rw [hf]; rfl)
      rcases @lastError_foldl config.backoff sends ⟨[], [], none⟩ with
        ⟨x, hx, g, hg, hlast⟩ | ⟨hnone, -⟩
      · rw [settleAll, hlast, Option.getD_some, hsame x hx send hsend g f hg hf] at hrow
        exact hrow
      · rw [hnone send hsend] at hf
        exact absurd hf (by simp)

/-- **When each event gets its own verdict.** For every batch of claimed events with distinct ids,
each is settled by exactly one update, by `markSentBatch` iff its send was acknowledged; a failed
one is retried by its own retry count, with the description of some failure of the batch; and all
rows are as their own sends say iff the failures of the batch have one description. -/
theorem ownVerdicts_iff (config : RelayConfig) (owner : Text) (clock : Clock)
    (sends : List (OutboxRow × SendOutcome)) (db : Db)
    (hids : (sends.map fun send => send.1.id).Nodup) (hclaimed : Claimed owner sends db) :
    (((settleAll config.backoff sends).sentIds ++
        failedIds (settleAll config.backoff sends).failedIdsByBackoff).Perm
      (sends.map fun send => send.1.id) ∧
    ∀ send ∈ sends,
      (send.1.id ∈ (settleAll config.backoff sends).sentIds ↔ send.2 = .acknowledged) ∧
      (send.2 = .acknowledged →
        sentRow config clock send.1 ∈ (dispatchBatch config owner clock sends db).outbox.rows) ∧
      (send.2 ≠ .acknowledged → ∃ error,
        retriedRow clock error (config.backoff.seconds send.1.retryCount) send.1 ∈
          (dispatchBatch config owner clock sends db).outbox.rows)) ∧
    (OwnVerdicts config owner clock sends db ↔ SameFailures sends) := by
  refine ⟨⟨settled_once config.backoff sends, fun send hsend => ?_⟩,
    ownVerdicts_iff_sameFailures hids hclaimed⟩
  have hrow := @settledRow_mem config owner clock sends db hids hclaimed send hsend
  refine ⟨(mem_sentIds hids hsend).trans failure_eq_none_iff,
    fun hack => hrow.1 (failure_eq_none_iff.mpr hack), fun hnot => ⟨_, hrow.2 ?_⟩⟩
  rw [Option.isSome_iff_ne_none]
  exact fun hnone => hnot (failure_eq_none_iff.mp hnone)

/-! ### Two batches -/

/-- Two events of one relay, claimed. -/
def claimedTwo : Db :=
  (claimRelayBatch [1, 2] ['r'] 30 0 (insertIgnoreBatch
    [SeckillOrderOutboxEvent.pending 0 ⟨1, 7, 5, false⟩,
      SeckillOrderOutboxEvent.pending 0 ⟨2, 7, 6, false⟩] Db.empty).2).2

/-- The events with the ends of their turns. -/
def batchOfTwo (first second : SendOutcome) : List (OutboxRow × SendOutcome) :=
  claimedTwo.outbox.rows.zip [first, second]

/-- `application.yaml`. -/
def relayDefaults : RelayConfig := ⟨100, 30, 60, ⟨1, 300⟩⟩

/-- All clocks show 0. -/
def zeroClock : Clock := ⟨0, 0, fun _ => 0, fun _ => 0⟩

theorem claimed_batchOfTwo (first second : SendOutcome) :
    ((batchOfTwo first second).map fun send => send.1.id).Nodup ∧
      Claimed ['r'] (batchOfTwo first second) claimedTwo := by
  have hids : (claimedTwo.outbox.rows.map fun e => e.id) = [1, 2] := by decide +kernel
  have hrows : ∀ e ∈ claimedTwo.outbox.rows, e.relayOwner = some ['r'] ∧ e.backlog = true := by
    decide +kernel
  have hlen : claimedTwo.outbox.rows.length = 2 := by decide +kernel
  have hfst : (batchOfTwo first second).map Prod.fst = claimedTwo.outbox.rows :=
    List.map_fst_zip (by rw [hlen]; exact le_refl 2)
  constructor
  · have : ((batchOfTwo first second).map Prod.fst).map (fun e => e.id) = [1, 2] := by
      rw [hfst, hids]
    rw [List.map_map] at this
    show ((batchOfTwo first second).map ((fun e : OutboxRow => e.id) ∘ Prod.fst)).Nodup
    rw [this]
    decide
  · intro send hsend
    have hmem : send.1 ∈ claimedTwo.outbox.rows := hfst ▸ List.mem_map_of_mem hsend
    exact ⟨hmem, hrows send.1 hmem⟩

theorem ownVerdicts_one_failure :
    OwnVerdicts relayDefaults ['r'] zeroClock (batchOfTwo .acknowledged .deadlinePassed)
      claimedTwo := by
  obtain ⟨hids, hclaimed⟩ := claimed_batchOfTwo .acknowledged .deadlinePassed
  refine (ownVerdicts_iff relayDefaults ['r'] zeroClock _ claimedTwo hids hclaimed).2.mpr ?_
  have hsecond : ∀ send ∈ batchOfTwo .acknowledged .deadlinePassed, ∀ f,
      send.2.failure = some f →
        f = ⟨"TimeoutException".toList, some "Kafka batch send timed out".toList⟩ := by
    intro send hsend f hf
    have hout : send.2 ∈ [SendOutcome.acknowledged, .deadlinePassed] :=
      (List.of_mem_zip hsend).2
    rcases List.mem_cons.mp hout with h | h
    · rw [h] at hf
      exact absurd hf (by simp [SendOutcome.failure])
    · rw [List.mem_singleton.mp h] at hf
      exact (Option.some.inj hf).symm
  intro a ha b hb f g hf hg
  rw [hsecond a ha f hf, hsecond b hb g hg]

/-- **The law fails**: the send of event 1 throws, that of event 2 times out, and both rows have
the timeout as their last error. -/
theorem wrong_last_error :
    ¬OwnVerdicts relayDefaults ['r'] zeroClock
        (batchOfTwo (.immediateFailure ⟨"SerializationException".toList, none⟩) .deadlinePassed)
        claimedTwo ∧
      ((dispatchBatch relayDefaults ['r'] zeroClock
        (batchOfTwo (.immediateFailure ⟨"SerializationException".toList, none⟩) .deadlinePassed)
        claimedTwo).outbox.rows.map fun e => (e.id, e.lastError)) =
      [(1, some "TimeoutException: Kafka batch send timed out".toList),
        (2, some "TimeoutException: Kafka batch send timed out".toList)] := by
  refine ⟨fun hown => ?_, by decide +kernel⟩
  have hfirst := hown _ (List.getElem_mem (show 0 < (batchOfTwo (.immediateFailure
    ⟨"SerializationException".toList, none⟩) .deadlinePassed).length by decide +kernel))
  revert hfirst
  decide +kernel

end Hmdp.Outbox
