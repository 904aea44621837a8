import Hmdp.Lib.Machine
import Hmdp.Model.Types

/-!
# `RedisIdWorker`

`nextId` reads the clock, increments the counter of the day in Redis and packs both into one
`long`. Calls of any number of instances and threads are known by a number; reading the clock and
`INCR` are two steps, so calls overlap as they like, and every reading is the instance's own. The
day is that of Asia/Shanghai, which has been eight hours ahead of UTC since 1991.
-/

namespace Hmdp.Model.RedisIdWorker

/-! ## `nextId` -/

/-- `BEGIN_TIMESTAMP`: 2022-01-01T00:00:00Z. -/
def beginTimestamp : Long := 1640995200

/-- `LocalDate.ofEpochDay`: year, month and day. -/
def ofEpochDay (epochDay : ℤ) : ℤ × ℤ × ℤ :=
  -- days since 0000-03-01, in eras of 400 years
  let zeroDay := epochDay + 719468
  let era := zeroDay / 146097
  let dayOfEra := zeroDay % 146097
  let yearOfEra := (dayOfEra - dayOfEra / 1460 + dayOfEra / 36524 - dayOfEra / 146096) / 365
  let dayOfYear := dayOfEra - (365 * yearOfEra + yearOfEra / 4 - yearOfEra / 100)
  let marchMonth := (5 * dayOfYear + 2) / 153
  let day := dayOfYear - (153 * marchMonth + 2) / 5 + 1
  let month := if marchMonth < 10 then marchMonth + 3 else marchMonth - 9
  (yearOfEra + era * 400 + (if month ≤ 2 then 1 else 0), month, day)

/-- The digits of `n`, with zeros in front up to `width`. -/
def padded (width : ℕ) (n : ℤ) : Text := (Nat.toDigits 10 n.toNat).leftpad width '0'

/-- `now.format(DateTimeFormatter.ofPattern("yyyyMMdd"))` in `CHINA_ZONE`. -/
def date (nowSecond : Long) : Text :=
  let day := ofEpochDay ((nowSecond.toInt + 28800) / 86400)
  padded 4 day.1 ++ padded 2 day.2.1 ++ padded 2 day.2.2

/-- `"icr:" + keyPrefix + ":" + date`. -/
def counterKey (keyPrefix : Text) (nowSecond : Long) : Text :=
  "icr:".toList ++ keyPrefix ++ ":".toList ++ date nowSecond

/-- `timestamp << COUNT_BITS | count`. -/
def compose (timestamp count : Long) : Long := timestamp <<< 32 ||| count

/-! ## Calls -/

/-- A call that has read its clock. -/
structure Call where
  keyPrefix : Text
  nowSecond : Long
  deriving DecidableEq

/-- A call that has returned, with the counter value it got. -/
structure Returned extends Call where
  count : Long
  deriving DecidableEq

/-- The returned value. -/
def Returned.id (r : Returned) : Long := compose (r.nowSecond - beginTimestamp) r.count

/-- The counters and the calls under way. -/
structure State where
  /-- the counters in Redis; nothing deletes one -/
  counters : Text → Option Long
  calls : ℕ → Option Call
  returned : List Returned

/-- The two statements of a call that others may come between. -/
inductive Action where
  /-- `ZonedDateTime.now` -/
  | readClock (call : ℕ) (keyPrefix : Text) (nowSecond : Long)
  /-- `INCR` and the return -/
  | increment (call : ℕ)

/-- The value `INCR` stores and returns. -/
def State.nextCount (s : State) (call : Call) : Long :=
  (s.counters (counterKey call.keyPrefix call.nowSecond)).getD 0 + 1

/-- One step; `none` where the call is not at such a step. An `INCR` that would overflow is an
error of Redis, which ends the call. -/
def step (s : State) : Action → Option State
  | .readClock i keyPrefix nowSecond =>
    match s.calls i with
    | some _ => none
    | none => some { s with calls := Function.update s.calls i (some ⟨keyPrefix, nowSecond⟩) }
  | .increment i =>
    match s.calls i with
    | none => none
    | some call =>
      let key := counterKey call.keyPrefix call.nowSecond
      let ended := { s with calls := Function.update s.calls i none }
      if s.counters key = some Int64.maxValue then some ended
      else
        some { ended with
          counters := Function.update s.counters key (some (s.nextCount call))
          returned := s.returned ++ [⟨call, s.nextCount call⟩] }

/-- No call yet; the counters are as found. -/
def initial (counters : Text → Option Long) : State := ⟨counters, fun _ => none, []⟩

/-- The day changes at midnight in Shanghai. -/
example : date 1641052799 = "20220101".toList ∧ date 1641052800 = "20220102".toList := by decide

end Hmdp.Model.RedisIdWorker
