import Hmdp.Lib.Table
import Hmdp.Model.Types
import Mathlib.Data.List.Sort

/-!
# The outboxes of the cache invalidations

`ShopCacheInvalidationOutboxRelay` and `SeckillVoucherLocalCacheInvalidationOutboxRelay` with their
mappers and event entities. The two are the same code over two tables, `targetId` being the shop or
the voucher, so there is one definition of each statement.

* An entity has the `Integer` of the column: a counter beyond it makes the query throw
  (`InvalidationRow.toEvent`). The bound of the column itself is left out; an update it stops is an
  update that throws.
* Times are seconds. The clocks of a relay and of the database are told apart.
-/

namespace Hmdp.Model

open Hmdp.Lib

/-- The status of an event. -/
inductive InvalidationStatus where
  | pending
  | sent
  | failed
  deriving DecidableEq

/-- `ShopCacheInvalidationMessage`, `SeckillVoucherLocalCacheInvalidationMessage`. -/
structure InvalidationMessage where
  eventId : Text
  targetId : Long
  reason : Text
  occurredAt : Time
  deriving DecidableEq

/-- A row of `tb_shop_cache_invalidation_outbox` or `tb_seckill_voucher_l1_invalidation_outbox`. -/
structure InvalidationRow where
  id : ℕ
  eventId : Text
  targetId : Long
  reason : Text
  status : InvalidationStatus
  retryCount : ℕ
  nextRetryTime : Time
  lastError : Option Text
  createdTime : Time
  updatedTime : Time
  sentTime : Option Time
  deriving DecidableEq

/-- What a relay reads of a row. -/
structure InvalidationEvent where
  id : ℕ
  message : InvalidationMessage
  retryCount : Option Int32
  deriving DecidableEq

/-- The outbox table. -/
abbrev InvalidationTable := Table (Keys.on InvalidationRow.id)

/-- `pending`, inserted under the id. -/
def InvalidationRow.pendingEvent (defaultReason : Text) (id : ℕ) (eventId : Text) (targetId : Long)
    (reason : Option Text) (now : Time) : InvalidationRow where
  id
  eventId
  targetId
  reason := reason.getD defaultReason
  status := .pending
  retryCount := 0
  nextRetryTime := now
  lastError := none
  createdTime := now
  updatedTime := now
  sentTime := none

/-- `ShopCacheInvalidationOutboxEvent.pending`. -/
def shopCacheInvalidationPending := InvalidationRow.pendingEvent "shop-changed".toList

/-- `SeckillVoucherLocalCacheInvalidationOutboxEvent.pending`. -/
def voucherInvalidationPending := InvalidationRow.pendingEvent "seckill-voucher-changed".toList

/-- The message `dispatch` builds. -/
def InvalidationRow.message (r : InvalidationRow) : InvalidationMessage :=
  ⟨r.eventId, r.targetId, r.reason, r.createdTime⟩

/-- The row as an entity, if its counter is an `Integer`. -/
def InvalidationRow.toEvent (r : InvalidationRow) : Option InvalidationEvent :=
  if r.retryCount < 2147483648 then
    some ⟨r.id, r.message, some (Int32.ofNat r.retryCount)⟩
  else none

/-! ## The mapper -/

/-- `findDispatchable`; `none` if it throws. -/
def InvalidationTable.findDispatchable (limit : ℕ) (now : Time) (t : InvalidationTable) :
    Option (List InvalidationEvent) :=
  (((t.rows.filter fun r => decide (r.status = .pending ∧ r.nextRetryTime ≤ now)).insertionSort
    fun a b => a.id ≤ b.id).take limit).mapM InvalidationRow.toEvent

/-- `UPDATE … WHERE id = #{id} AND status = 'PENDING'`. -/
def InvalidationTable.updatePending (id : ℕ) (f : InvalidationRow → InvalidationRow)
    (hf : ∀ r, (f r).id = r.id) (t : InvalidationTable) : ℕ × InvalidationTable :=
  t.update (fun r => decide (r.id = id ∧ r.status = .pending)) f (Keys.on_congr hf)

/-- The `SET` clauses of `markSent`, `scheduleRetry` and `markFailed`. -/
def InvalidationRow.sent (now : Time) (r : InvalidationRow) : InvalidationRow :=
  { r with status := .sent, sentTime := some now, updatedTime := now, lastError := none }

/-- The row after `scheduleRetry`. -/
def InvalidationRow.retried (nextRetryTime : Time) (lastError : Text) (now : Time)
    (r : InvalidationRow) : InvalidationRow :=
  { r with
    retryCount := r.retryCount + 1, nextRetryTime, lastError := some lastError,
    updatedTime := now }

/-- The row after `markFailed`. -/
def InvalidationRow.failed (lastError : Text) (now : Time) (r : InvalidationRow) :
    InvalidationRow :=
  { r with
    status := .failed, retryCount := r.retryCount + 1, lastError := some lastError,
    updatedTime := now }

/-- `markSent`: the rows it has changed, and the table. -/
def InvalidationTable.markSent (id : ℕ) (now : Time) : InvalidationTable → ℕ × InvalidationTable :=
  updatePending id (.sent now) fun _ => rfl

/-- `scheduleRetry`, the same way. -/
def InvalidationTable.scheduleRetry (id : ℕ) (nextRetryTime : Time) (lastError : Text)
    (now : Time) : InvalidationTable → ℕ × InvalidationTable :=
  updatePending id (.retried nextRetryTime lastError now) fun _ => rfl

/-- `markFailed`, the same way. -/
def InvalidationTable.markFailed (id : ℕ) (lastError : Text) (now : Time) :
    InvalidationTable → ℕ × InvalidationTable :=
  updatePending id (.failed lastError now) fun _ => rfl

/-! ## The relay -/

/-- What the relay is configured with. -/
structure InvalidationRelayConfig where
  batchSize : ℕ
  maxAutoRetries : Int32
  initialBackoffSeconds : Long
  maxBackoffSeconds : Long

/-- What `handleFailure` reads of the exception. -/
structure JavaException where
  simpleName : Text
  message : Option Text

/-- `truncate`. -/
def truncate (value : Text) : Text :=
  if javaLength value ≤ 512 then value else javaPrefix 512 value

/-- The error text of `handleFailure`. -/
def JavaException.error (e : JavaException) : Text :=
  truncate (e.simpleName ++ ": ".toList ++ e.message.getD "null".toList)

/-- `calculateBackoffSeconds`. -/
def InvalidationRelayConfig.backoffSeconds (cfg : InvalidationRelayConfig) (retryCount : Int32) :
    Long :=
  let exponent := min retryCount 20
  let multiplier : Long := 1 <<< exponent.toInt64
  if Int64.maxValue / multiplier < cfg.initialBackoffSeconds then cfg.maxBackoffSeconds
  else min (cfg.initialBackoffSeconds * multiplier) cfg.maxBackoffSeconds

/-- `event.getRetryCount() == null ? 0 : event.getRetryCount()`. -/
def InvalidationEvent.currentRetryCount (e : InvalidationEvent) : Int32 := e.retryCount.getD 0

/-- The attempt was the last one. -/
def InvalidationEvent.exhausted (cfg : InvalidationRelayConfig) (e : InvalidationEvent) : Bool :=
  decide (cfg.maxAutoRetries ≤ e.currentRetryCount + 1)

/-- The update of `handleFailure`; `localNow` is the clock of the relay. -/
def InvalidationTable.handleFailure (cfg : InvalidationRelayConfig) (e : InvalidationEvent)
    (exception : JavaException) (localNow now : Time) (t : InvalidationTable) : InvalidationTable :=
  if e.exhausted cfg then (t.markFailed e.id exception.error now).2
  else
    (t.scheduleRetry e.id (localNow + (cfg.backoffSeconds e.currentRetryCount).toInt)
      exception.error now).2

/-- Where `relayPending` stands. -/
inductive InvalidationRelayPhase where
  | idle
  /-- in the loop over the events -/
  | dispatching (events : List InvalidationEvent)
  /-- the send is acknowledged, `markSent` is next -/
  | acknowledged (event : InvalidationEvent) (events : List InvalidationEvent)
  /-- `dispatch` has caught an exception, `handleFailure` is next -/
  | failed (event : InvalidationEvent) (exception : JavaException)
    (events : List InvalidationEvent)

/-- The row `handleFailure` is about to update. -/
def InvalidationRelayPhase.failedId : InvalidationRelayPhase → Option ℕ
  | .failed e _ _ => some e.id
  | _ => none

/-! ## Facts -/

@[simp] theorem InvalidationRelayPhase.failedId_failed (e : InvalidationEvent)
    (exception : JavaException) (events : List InvalidationEvent) :
    (failed e exception events).failedId = some e.id := rfl

theorem InvalidationTable.eq_of_id (t : InvalidationTable) {r r' : InvalidationRow}
    (hr : r ∈ t.rows) (hr' : r' ∈ t.rows) (h : r.id = r'.id) : r = r' :=
  List.inj_on_of_nodup_map t.nodup_key hr hr' h

theorem mem_of_mapM {α β : Type*} {f : α → Option β} {l : List α} {l' : List β}
    (h : l.mapM f = some l') {b : β} (hb : b ∈ l') : ∃ a ∈ l, f a = some b := by
  induction l generalizing l' with
  | nil =>
    cases h
    exact absurd hb List.not_mem_nil
  | cons a l ih =>
    rw [List.mapM_cons] at h
    obtain ⟨c, hc, h⟩ := Option.bind_eq_some_iff.mp h
    obtain ⟨cs, hcs, h⟩ := Option.bind_eq_some_iff.mp h
    cases h
    rcases List.mem_cons.mp hb with rfl | hb
    · exact ⟨a, List.mem_cons_self, hc⟩
    · obtain ⟨a', ha', hf⟩ := ih hcs hb
      exact ⟨a', List.mem_cons_of_mem a ha', hf⟩

/-- An event that is found is a row. -/
theorem InvalidationTable.mem_findDispatchable {limit : ℕ} {now : Time} {t : InvalidationTable}
    {events : List InvalidationEvent} (h : t.findDispatchable limit now = some events)
    {e : InvalidationEvent} (he : e ∈ events) : ∃ r ∈ t.rows, r.toEvent = some e := by
  obtain ⟨r, hr, hre⟩ := mem_of_mapM h he
  have hr := List.mem_of_mem_take hr
  rw [List.mem_insertionSort] at hr
  exact ⟨r, (List.mem_filter.mp hr).1, hre⟩

/-- What an update of pending rows does to the rows. -/
theorem InvalidationTable.mem_updatePending {t : InvalidationTable} {id : ℕ}
    {f : InvalidationRow → InvalidationRow} (hf : ∀ r, (f r).id = r.id) {r : InvalidationRow} :
    r ∈ (t.updatePending id f hf).2.rows ↔
      (r ∈ t.rows ∧ ¬(r.id = id ∧ r.status = .pending)) ∨
        ∃ old ∈ t.rows, (old.id = id ∧ old.status = .pending) ∧ f old = r := by
  unfold updatePending
  rw [Table.mem_update]
  constructor
  · rintro ⟨old, hold, rfl⟩
    by_cases h : old.id = id ∧ old.status = .pending
    · rw [decide_eq_true h]
      exact .inr ⟨old, hold, h, rfl⟩
    · rw [decide_eq_false h]
      exact .inl ⟨hold, h⟩
  · rintro (⟨hr, h⟩ | ⟨old, hold, h, rfl⟩)
    · exact ⟨r, hr, by rw [decide_eq_false h]; rfl⟩
    · exact ⟨old, hold, by rw [decide_eq_true h]; rfl⟩

theorem InvalidationRow.toEvent_eq_some {r : InvalidationRow} {e : InvalidationEvent} :
    r.toEvent = some e ↔
      r.retryCount < 2147483648 ∧ ⟨r.id, r.message, some (Int32.ofNat r.retryCount)⟩ = e := by
  unfold InvalidationRow.toEvent
  split
  · rename_i h
    exact ⟨fun he => ⟨h, Option.some.inj he⟩, fun he => congrArg some he.2⟩
  · rename_i h
    exact ⟨fun he => absurd he (by simp), fun he => absurd he.1 h⟩

/-- The counter of an entity is that of its row. -/
theorem InvalidationRow.currentRetryCount_toEvent {r : InvalidationRow} {e : InvalidationEvent}
    (h : r.toEvent = some e) : e.currentRetryCount.toInt = r.retryCount := by
  obtain ⟨hlt, rfl⟩ := toEvent_eq_some.mp h
  simp only [InvalidationEvent.currentRetryCount, Option.getD_some]
  exact Int32.toInt_ofNat_of_lt hlt

/-- **What `handleFailure` does**: a pending row is counted up, and fails if the event was
exhausted. -/
theorem InvalidationTable.handleFailure_eq (cfg : InvalidationRelayConfig) (e : InvalidationEvent)
    (exception : JavaException) (localNow now : Time) (t : InvalidationTable) :
    ∃ (f : InvalidationRow → InvalidationRow) (hf : ∀ r, (f r).id = r.id),
      t.handleFailure cfg e exception localNow now = (t.updatePending e.id f hf).2 ∧
        ∀ r, (f r).message = r.message ∧ (f r).retryCount = r.retryCount + 1 ∧
          ((f r).status = r.status ∨ ((f r).status = .failed ∧ e.exhausted cfg = true)) := by
  unfold handleFailure
  split
  · rename_i h
    exact ⟨.failed exception.error now, fun _ => rfl, rfl, fun r => ⟨rfl, rfl, .inr ⟨rfl, h⟩⟩⟩
  · exact ⟨.retried _ exception.error now, fun _ => rfl, rfl, fun r => ⟨rfl, rfl, .inl rfl⟩⟩

/-- **An exhausted event had at least `maxAutoRetries` attempts with this one**, the addition
not overflowing for a bound that is positive. -/
theorem InvalidationEvent.exhausted_toInt {cfg : InvalidationRelayConfig} {e : InvalidationEvent}
    (hmax : 1 ≤ cfg.maxAutoRetries) (h : e.exhausted cfg = true) :
    cfg.maxAutoRetries.toInt ≤ e.currentRetryCount.toInt + 1 := by
  have hle := Int32.le_iff_toInt_le.mp (of_decide_eq_true h)
  have hpos := Int32.le_iff_toInt_le.mp hmax
  have hlt := e.currentRetryCount.toInt_lt
  have hge := e.currentRetryCount.le_toInt
  rw [Int32.toInt_add] at hle
  have hone : (1 : Int32).toInt = 1 := rfl
  rw [hone] at hle hpos
  by_cases hsmall : e.currentRetryCount.toInt + 1 < 2 ^ 31
  · rwa [Int.bmod_eq_of_le (by omega) (by omega)] at hle
  · have hmaxint : e.currentRetryCount.toInt + 1 = 2 ^ 31 := by omega
    rw [hmaxint] at hle
    have hneg : ((2 : ℤ) ^ 31).bmod (2 ^ 32) = -2 ^ 31 := by decide
    omega

end Hmdp.Model
