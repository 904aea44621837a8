import Hmdp.Model.InvalidationOutbox
import Hmdp.Model.OutboxRelay

/-!
# `dispatchBatch` of the order outbox relay

`OutboxRelay` keeps of `dispatchBatch` which sends succeed and when its updates run. Here the method
is followed as a whole: every event's send ends in one of the ways its turn can end
(`SendOutcome`), the loop over the sends collects the sent ids, the failed ids by backoff and one
`lastError`, and the updates settle the rows.

The clock of the application and that of the database are read once for each statement. An update
that a deadlock rolls back is repeated, so one that succeeds is executed once.
-/

namespace Hmdp.Model.SeckillOrderOutboxRelay

/-- How the turn of one event ends in the loop over the sends. -/
inductive SendOutcome where
  /-- `toMessage` or `producer.send` has thrown -/
  | immediateFailure (e : JavaException)
  /-- `remaining <= 0` -/
  | deadlinePassed
  /-- `future.get` returns -/
  | acknowledged
  /-- `future.get` throws, with the message of the exception -/
  | executionException (message : Option Text)
  | timeoutException (message : Option Text)
  | interruptedException (message : Option Text)

/-- `failure` at the end of the turn. -/
def SendOutcome.failure : SendOutcome → Option JavaException
  | .immediateFailure e => some e
  | .deadlinePassed => some ⟨"TimeoutException".toList, some "Kafka batch send timed out".toList⟩
  | .acknowledged => none
  | .executionException message => some ⟨"ExecutionException".toList, message⟩
  | .timeoutException message => some ⟨"TimeoutException".toList, message⟩
  | .interruptedException message => some ⟨"InterruptedException".toList, message⟩

/-- `truncate`. -/
def truncate (value : Text) : Text :=
  if javaLength value ≤ 500 then value else javaPrefix 500 value

/-- `truncate(failure.getClass().getSimpleName() + ": " + failure.getMessage())`. -/
def describe (failure : JavaException) : Text :=
  truncate (failure.simpleName ++ ": ".toList ++ failure.message.getD "null".toList)

/-- The local variables of the loop over the sends. -/
structure Settled where
  sentIds : List ℕ
  failedIdsByBackoff : List (ℤ × List ℕ)
  lastError : Option Text

/-- One turn of the loop. -/
def settle (backoff : RetryBackoff) (acc : Settled) (send : OutboxRow × SendOutcome) : Settled :=
  match send.2.failure with
  | none => { acc with sentIds := acc.sentIds ++ [send.1.id] }
  | some failure =>
    { acc with
      failedIdsByBackoff :=
        addFailed (backoff.seconds send.1.retryCount) send.1.id acc.failedIdsByBackoff
      lastError := some (describe failure) }

/-- The loop over the sends. -/
def settleAll (backoff : RetryBackoff) (sends : List (OutboxRow × SendOutcome)) : Settled :=
  sends.foldl (settle backoff) ⟨[], [], none⟩

/-- `LocalDateTime.now()` and `NOW()` at each update; the retries are known by their backoff. -/
structure Clock where
  sentLocal : Time
  sentNow : Time
  retryLocal : ℤ → Time
  retryNow : ℤ → Time

/-- The loop over `failedIdsByBackoff`. -/
def scheduleRetries (owner : Text) (clock : Clock) (lastError : Text) :
    List (ℤ × List ℕ) → Db → Db
  | [], db => db
  | (backoff, ids) :: rest, db =>
    scheduleRetries owner clock lastError rest
      (scheduleRetryBatch ids owner (clock.retryLocal backoff + backoff) lastError
        (clock.retryNow backoff) db).2

/-- `dispatchBatch` of the events, each with the end of its turn. -/
def dispatchBatch (config : RelayConfig) (owner : Text) (clock : Clock)
    (sends : List (OutboxRow × SendOutcome)) (db : Db) : Db :=
  let settled := settleAll config.backoff sends
  let db' :=
    if settled.sentIds = [] then db
    else
      (markSentBatch (settled.sentIds.insertionSort (· ≤ ·)) owner
        (clock.sentLocal + config.sentRecheckSeconds) clock.sentNow db).2
  scheduleRetries owner clock (settled.lastError.getD []) settled.failedIdsByBackoff db'

end Hmdp.Model.SeckillOrderOutboxRelay
