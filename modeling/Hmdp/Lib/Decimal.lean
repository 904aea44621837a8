import Mathlib.Data.Int.Notation
import Mathlib.Data.List.Induction
import Mathlib.Data.Nat.Notation

/-!
# Decimal text of integers

Printing an integer and reading it back. Reading is parametric in the digit function of the
platform, which may accept more characters than the ten ASCII digits; `readInt_printInt` only
needs it to be right on those.

* `readInt_printInt`: a printed integer reads back as itself.
* `canonical_iff`: the texts that are printed.
-/

namespace Hmdp.Lib

/-- `digit` gives the ten ASCII digits their value. -/
def AsciiDigits (digit : Char → Option ℕ) : Prop :=
  ∀ c : Char, c.isDigit = true → digit c = some (c.toNat - '0'.toNat)

/-- The value of a digit sequence read after `acc`; `none` at the first character that is no
digit. -/
def readDigits (digit : Char → Option ℕ) : ℕ → List Char → Option ℕ
  | acc, [] => some acc
  | acc, c :: cs => (digit c).bind fun d => readDigits digit (10 * acc + d) cs

/-- An optional sign and at least one digit. -/
def readInt (digit : Char → Option ℕ) : List Char → Option ℤ
  | [] => none
  | '-' :: [] => none
  | '-' :: cs => (readDigits digit 0 cs).map fun n : ℕ => -(n : ℤ)
  | '+' :: [] => none
  | '+' :: cs => (readDigits digit 0 cs).map fun n : ℕ => (n : ℤ)
  | cs => (readDigits digit 0 cs).map fun n : ℕ => (n : ℤ)

/-- The shortest decimal text, with a minus sign for a negative number. -/
def printInt (i : ℤ) : List Char :=
  if i < 0 then '-' :: Nat.toDigits 10 i.natAbs else Nat.toDigits 10 i.natAbs

variable {digit : Char → Option ℕ}

theorem readDigits_eq (hd : AsciiDigits digit) (cs : List Char) (acc : ℕ)
    (h : ∀ c ∈ cs, c.isDigit = true) :
    readDigits digit acc cs = some (Nat.ofDigitChars 10 cs acc) := by
  induction cs generalizing acc with
  | nil => rw [readDigits, Nat.ofDigitChars_nil]
  | cons c cs ih =>
    rw [readDigits, hd c (h c List.mem_cons_self), Option.bind_some, Nat.ofDigitChars_cons,
      ih _ fun x hx => h x (List.mem_cons_of_mem c hx)]

theorem readDigits_toDigits (hd : AsciiDigits digit) (n : ℕ) :
    readDigits digit 0 (Nat.toDigits 10 n) = some n := by
  rw [readDigits_eq hd _ _ fun c hc =>
    Nat.isDigit_of_mem_toDigits (b := 10) (by omega) (by omega) hc,
    Nat.ofDigitChars_toDigits (by omega) (by omega)]

/-- A character of a printed number is a digit or the minus sign. -/
theorem mem_printInt {i : ℤ} {c : Char} (h : c ∈ printInt i) : c = '-' ∨ c.isDigit = true := by
  unfold printInt at h
  split at h
  · rcases List.mem_cons.mp h with rfl | h
    · exact Or.inl rfl
    · exact Or.inr (Nat.isDigit_of_mem_toDigits (b := 10) (by omega) (by omega) h)
  · exact Or.inr (Nat.isDigit_of_mem_toDigits (b := 10) (by omega) (by omega) h)

/-- Text that starts with a digit has no sign to strip. -/
theorem readInt_of_digit {c : Char} {cs : List Char} (hc : c.isDigit = true) :
    readInt digit (c :: cs) = (readDigits digit 0 (c :: cs)).map fun n : ℕ => (n : ℤ) := by
  have hm : c ≠ '-' := by rintro rfl; exact absurd hc (by decide)
  have hp : c ≠ '+' := by rintro rfl; exact absurd hc (by decide)
  unfold readInt
  split <;> simp_all

theorem readInt_toDigits (hd : AsciiDigits digit) (n : ℕ) :
    readInt digit (Nat.toDigits 10 n) = some (n : ℤ) := by
  have hr := readDigits_toDigits hd n
  cases hs : Nat.toDigits 10 n with
  | nil => exact absurd hs Nat.toDigits_ne_nil
  | cons c cs =>
    have hc : c.isDigit = true :=
      Nat.isDigit_of_mem_toDigits (b := 10) (by omega) (by omega) (hs ▸ List.mem_cons_self)
    rw [readInt_of_digit hc, ← hs, hr]
    rfl

/-- **Round trip**: a printed integer reads back as itself. -/
theorem readInt_printInt (hd : AsciiDigits digit) (i : ℤ) :
    readInt digit (printInt i) = some i := by
  unfold printInt
  split
  · rename_i hneg
    have hr := readDigits_toDigits hd i.natAbs
    cases hs : Nat.toDigits 10 i.natAbs with
    | nil => exact absurd hs Nat.toDigits_ne_nil
    | cons c cs =>
      rw [hs] at hr
      show (readDigits digit 0 (c :: cs)).map _ = _
      rw [hr, Option.map_some]
      congr 1
      omega
  · rename_i hneg
    rw [readInt_toDigits hd]
    congr 1
    omega

/-! ## The texts that are printed -/

/-- The digits of a number, without leading zeros. -/
def Shortest : List Char → Prop
  | [] => False
  | c :: cs => (∀ x ∈ c :: cs, x.isDigit = true) ∧ (c = '0' → cs = [])

instance : DecidablePred Shortest
  | [] => inferInstanceAs (Decidable False)
  | c :: cs => inferInstanceAs (Decidable ((∀ x ∈ c :: cs, x.isDigit = true) ∧ (c = '0' → cs = [])))

/-- A text that `printInt` prints. -/
def Canonical : List Char → Prop
  | '-' :: cs => Shortest cs ∧ cs ≠ ['0']
  | cs => Shortest cs

instance : DecidablePred Canonical := fun cs => by
  unfold Canonical
  split <;> infer_instance

theorem digitChar_of_isDigit {c : Char} (h : c.isDigit = true) :
    ∃ d, d < 10 ∧ Nat.digitChar d = c := by
  simp only [Char.isDigit, Bool.and_eq_true, decide_eq_true_eq] at h
  obtain ⟨h0, h9⟩ := h
  have h0' : (48 : UInt32).toNat ≤ c.val.toNat := UInt32.le_iff_toNat_le.mp h0
  have h9' : c.val.toNat ≤ (57 : UInt32).toNat := UInt32.le_iff_toNat_le.mp h9
  have h48 : 48 ≤ c.toNat := h0'
  have h57 : c.toNat ≤ 57 := h9'
  refine ⟨c.toNat - 48, by omega, Char.toNat_inj.mp ?_⟩
  rw [Nat.toNat_digitChar_of_lt_ten (by omega)]
  omega

/-- The text of a number is the shortest one … -/
theorem shortest_toDigits (n : ℕ) : Shortest (Nat.toDigits 10 n) := by
  induction n using Nat.strongRecOn with
  | _ n ih =>
    by_cases hn : n < 10
    · rw [Nat.toDigits_of_lt_base hn]
      refine ⟨fun x hx => ?_, fun _ => rfl⟩
      rw [List.mem_singleton.mp hx]
      exact Nat.isDigit_of_mem_toDigits (b := 10) (n := n) (by omega) (by omega)
        (by simp [Nat.toDigits_of_lt_base hn])
    · have hdigits : ∀ x ∈ Nat.toDigits 10 n, x.isDigit = true := fun x hx =>
        Nat.isDigit_of_mem_toDigits (b := 10) (by omega) (by omega) hx
      have hinit := ih (n / 10) (by omega)
      rw [Nat.toDigits_of_base_le (by omega) (by omega)] at hdigits ⊢
      cases hs : Nat.toDigits 10 (n / 10) with
      | nil => exact absurd hs Nat.toDigits_ne_nil
      | cons c cs =>
        rw [hs] at hinit hdigits
        refine ⟨hdigits, fun hc => ?_⟩
        have hvalue := Nat.ofDigitChars_ten_toDigits (n := n / 10)
        rw [hs, hc, hinit.2 hc] at hvalue
        have hzero : Nat.ofDigitChars 10 ['0'] 0 = 0 := by decide
        omega

/-- … and there is no other. -/
theorem exists_toDigits {cs : List Char} (h : Shortest cs) : ∃ n, cs = Nat.toDigits 10 n := by
  induction cs using List.reverseRecOn with
  | nil => exact h.elim
  | append_singleton init last ih =>
    cases init with
    | nil =>
      obtain ⟨d, hd, rfl⟩ := digitChar_of_isDigit (h.1 last (by simp))
      exact ⟨d, (Nat.toDigits_of_lt_base hd).symm⟩
    | cons c cs =>
      obtain ⟨hdigits, hlead⟩ := h
      have hc : c ≠ '0' := fun hc => absurd (hlead hc) (by simp)
      obtain ⟨d, hd, rfl⟩ := digitChar_of_isDigit (hdigits last (by simp))
      obtain ⟨n, hn⟩ := ih ⟨fun x hx => hdigits x (List.mem_append_left _ hx),
        fun h0 => absurd h0 hc⟩
      have hpos : 0 < n := by
        rcases Nat.eq_zero_or_pos n with rfl | hpos
        · rw [Nat.toDigits_zero] at hn
          cases hn
          exact absurd rfl hc
        · exact hpos
      refine ⟨10 * n + d, ?_⟩
      rw [← Nat.toDigits_append_toDigits (by omega) hpos hd, hn, Nat.toDigits_of_lt_base hd]

/-- **The image of printing.** -/
theorem canonical_iff {cs : List Char} : Canonical cs ↔ ∃ i, cs = printInt i := by
  constructor
  · intro h
    unfold Canonical at h
    split at h
    · rename_i cs
      obtain ⟨hshort, hne⟩ := h
      obtain ⟨n, rfl⟩ := exists_toDigits hshort
      have hpos : 0 < n := by
        rcases Nat.eq_zero_or_pos n with rfl | hpos
        · exact absurd (Nat.toDigits_zero 10) hne
        · exact hpos
      refine ⟨-n, ?_⟩
      rw [printInt, if_pos (by omega), Int.natAbs_neg, Int.natAbs_natCast]
    · obtain ⟨n, rfl⟩ := exists_toDigits h
      refine ⟨n, ?_⟩
      rw [printInt, if_neg (by omega), Int.natAbs_natCast]
  · rintro ⟨i, rfl⟩
    unfold printInt
    split
    · rename_i hneg
      refine ⟨shortest_toDigits _, fun h => ?_⟩
      have hvalue := Nat.ofDigitChars_ten_toDigits (n := i.natAbs)
      rw [h] at hvalue
      have hzero : Nat.ofDigitChars 10 ['0'] 0 = 0 := by decide
      omega
    · have hshort := shortest_toDigits i.natAbs
      unfold Canonical
      split
      · rename_i cs hcs
        rw [hcs] at hshort
        exact absurd (hshort.1 '-' List.mem_cons_self) (by decide)
      · exact hshort

end Hmdp.Lib
