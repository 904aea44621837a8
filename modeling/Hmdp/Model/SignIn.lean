import Hmdp.Lib.Bits
import Hmdp.Model.Codec

/-!
# Signing in day by day

`UserServiceImpl.sign` and `signCount`. A user has a bitmap in Redis for each month, one bit for
each day. `signCount` reads the bits up to today with `BITFIELD GET u<day> 0`, which gives one
number, and counts the ones at its end.

* The number has at most 31 bits, one for each day, so it is the same as a `Long`.
* `BITFIELD` answers one number even for a key that does not exist: `0`, as for bits that were
  never set.
-/

namespace Hmdp.Model

open Hmdp.Lib

/-- `LocalDateTime`, as far as it is read. -/
structure LocalDate where
  year : ℕ
  month : ℕ
  day : ℕ
  month_valid : 1 ≤ month ∧ month ≤ 12
  day_valid : 1 ≤ day ∧ day ≤ 31
  deriving DecidableEq

/-- `DateTimeFormatter.ofPattern("yyyyMM")`; a year of more than four digits gets a sign. -/
def LocalDate.yyyyMM (now : LocalDate) : Text :=
  (if 9999 < now.year then ['+'] else []) ++ (Nat.toDigits 10 now.year).leftpad 4 '0' ++
    (Nat.toDigits 10 now.month).leftpad 2 '0'

/-- `USER_SIGN_KEY + userId + keySuffix`. -/
def signKey (userId : UserId) (now : LocalDate) : Text :=
  "sign:".toList ++ userId.toText ++ ':' :: now.yyyyMM

/-- The bitmaps of Redis; no bit is set of a key that does not exist. -/
abbrev Bitmaps := Text → ℕ → Bool

/-- `setBit(key, dayOfMonth - 1, true)`. -/
def sign (userId : UserId) (now : LocalDate) (bitmaps : Bitmaps) : Bitmaps :=
  Function.update bitmaps (signKey userId now)
    (Function.update (bitmaps (signKey userId now)) (now.day - 1) true)

/-- `signCount`: the length of the run of sign-ins that ends today. -/
def signCount (userId : UserId) (now : LocalDate) (bitmaps : Bitmaps) : ℕ :=
  let num := bitField (bitmaps (signKey userId now)) now.day
  if num = 0 then 0 else trailingOnes num

/-! ## The key names a user and a month -/

theorem ofDigitChars_leftpad (width n : ℕ) :
    Nat.ofDigitChars 10 ((Nat.toDigits 10 n).leftpad width '0') 0 = n := by
  rw [List.leftpad, Nat.ofDigitChars_append, Nat.ofDigitChars_replicate_zero, Nat.mul_zero,
    Nat.ofDigitChars_toDigits (by omega) (by omega)]

theorem leftpad_injective {width m n : ℕ}
    (h : (Nat.toDigits 10 m).leftpad width '0' = (Nat.toDigits 10 n).leftpad width '0') :
    m = n := by
  rw [← ofDigitChars_leftpad width m, h, ofDigitChars_leftpad]

theorem isDigit_of_mem_leftpad {width n : ℕ} {c : Char}
    (h : c ∈ (Nat.toDigits 10 n).leftpad width '0') : c.isDigit = true := by
  rw [List.leftpad, List.mem_append] at h
  rcases h with h | h
  · rw [List.eq_of_mem_replicate h]
    decide
  · exact Nat.isDigit_of_mem_toDigits (b := 10) (by omega) (by omega) h

/-- The month is the last two characters. -/
theorem length_month (now : LocalDate) :
    ((Nat.toDigits 10 now.month).leftpad 2 '0').length = 2 := by
  have hmonth := now.month_valid
  have hlength : (Nat.toDigits 10 now.month).length ≤ 2 :=
    (Nat.length_toDigits_le_iff (by omega) (by omega)).mpr (by omega)
  rw [List.length_leftpad]
  omega

theorem yyyyMM_injective {d e : LocalDate} (h : d.yyyyMM = e.yyyyMM) :
    d.year = e.year ∧ d.month = e.month := by
  unfold LocalDate.yyyyMM at h
  obtain ⟨hyear, hmonth⟩ := List.append_inj' h (by rw [length_month, length_month])
  refine ⟨?_, leftpad_injective hmonth⟩
  -- without a sign, the year is its digits
  have hdigits : ∀ y : ℕ, ((if 9999 < y then ['+'] else []) ++
      (Nat.toDigits 10 y).leftpad 4 '0').filter Char.isDigit =
        (Nat.toDigits 10 y).leftpad 4 '0' := by
    intro y
    have hsign : (if 9999 < y then ['+'] else []).filter Char.isDigit = [] := by
      split <;> decide
    rw [List.filter_append, hsign, List.nil_append, List.filter_eq_self]
    exact fun c hc => isDigit_of_mem_leftpad hc
  have hfilter := congrArg (List.filter Char.isDigit) hyear
  rw [hdigits, hdigits] at hfilter
  exact leftpad_injective hfilter

theorem colon_not_mem (userId : UserId) (now : LocalDate) :
    ':' ∉ userId.toText ∧ ':' ∉ now.yyyyMM := by
  constructor
  · intro h
    rcases mem_printInt h with h | h
    · exact absurd h (by decide)
    · exact absurd h (by decide)
  · intro h
    rw [LocalDate.yyyyMM, List.mem_append, List.mem_append] at h
    rcases h with (h | h) | h
    · split at h
      · exact absurd h (by decide)
      · exact absurd h (by decide)
    · exact absurd (isDigit_of_mem_leftpad h) (by decide)
    · exact absurd (isDigit_of_mem_leftpad h) (by decide)

theorem signKey_injective {u v : UserId} {d e : LocalDate} (h : signKey u d = signKey v e) :
    u = v ∧ d.year = e.year ∧ d.month = e.month := by
  unfold signKey at h
  rw [List.append_assoc, List.append_assoc, List.append_cancel_left_eq] at h
  obtain ⟨hu, -, hsuffix⟩ :=
    (List.append_cons_inj_of_notMem (colon_not_mem u d).1 (colon_not_mem u d).2).mp h
  exact ⟨Long.toText_injective hu, yyyyMM_injective hsuffix⟩

end Hmdp.Model
