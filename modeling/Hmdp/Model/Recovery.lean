import Hmdp.Model.Mysql

/-!
# Retrying an accepted order

`SeckillAcceptedOrderRecoveryService.retry` and its two callers: the dead-letter listener, which
reads the outbox row of the message's order, and `retryManualReviews`. The lookup of the order and
the update that follows are two statements, so a call in flight is a value of `Recovery`.

`RetryBackoff` holds the two configured bounds; times are in seconds.
-/

namespace Hmdp.Model

/-- `outbox.initial-backoff-seconds` and `outbox.max-backoff-seconds`. -/
structure RetryBackoff where
  initialBackoffSeconds : ℤ
  maxBackoffSeconds : ℤ

/-- `Math.min(maxBackoffSeconds, initialBackoffSeconds * (1L << Math.min(retry, 20)))`. -/
def RetryBackoff.seconds (b : RetryBackoff) (retryCount : ℕ) : ℤ :=
  min b.maxBackoffSeconds (b.initialBackoffSeconds * 2 ^ min retryCount 20)

/-- A call of `retry` for an event, by the dead-letter listener or for a manual review. -/
inductive Recovery where
  /-- the event has been read -/
  | read (event : OutboxRow) (deadLetter : Bool)
  /-- `selectById` has answered -/
  | looked (event : OutboxRow) (deadLetter : Bool) (orderExists : Bool)
  /-- `retry` has thrown in the dead-letter listener -/
  | failed (event : OutboxRow)
  deriving DecidableEq

/-- The event a call is about. -/
def Recovery.event : Recovery → OutboxRow
  | .read event _ => event
  | .looked event _ _ => event
  | .failed event => event

/-- The update of `retry` after its lookup, and whether it matched a row; if not, `retry`
throws. -/
def retryUpdate (backoff : RetryBackoff) (event : OutboxRow) (orderExists : Bool) (reason : Text)
    (localNow now : Time) (db : Db) : Bool × Db :=
  let updated :=
    if orderExists then markCompleted event.orderId now db
    else requeueAccepted event.orderId (localNow + backoff.seconds event.retryCount) reason now db
  (decide (updated.1 ≠ 0), updated.2)

/-- What is left of a call whose `retry` has thrown: the dead-letter listener marks the event for
manual review, the manual review loop goes on. -/
def Recovery.thrown : Recovery → Option Recovery
  | .read event deadLetter => if deadLetter then some (.failed event) else none
  | .looked event deadLetter _ => if deadLetter then some (.failed event) else none
  | .failed _ => none

end Hmdp.Model
