import Mathlib.Algebra.Order.Ring.Int
import Mathlib.Data.Finset.Card

/-!
# Reservations

Two abstract pictures of a limited right. A `Ledger` splits a stock into free units and units
held by reservations: a reservation takes a free unit, a settlement removes held units from the
stock, a return adds a free unit to it. What every move keeps is `Balanced`, and a balanced ledger
covers every settlement. An `Exclusive` right may be claimed once, and whoever has a claim is
marked.

* `Balanced.move`, `Balanced.covers`.
* `Exclusive.take`, `Exclusive.drop`.
-/

namespace Hmdp.Lib

variable {κ : Type*} [DecidableEq κ]

/-! ## Ledgers -/

/-- A stock of units: free ones, and one for each reservation that is held. -/
structure Ledger (κ : Type*) where
  free : ℤ
  held : Finset κ
  stock : ℤ

namespace Ledger

/-- One movement of units. -/
inductive Move : Ledger κ → Ledger κ → Prop
  | idle (l : Ledger κ) : Move l l
  /-- a free unit is reserved -/
  | reserve {l : Ledger κ} {k : κ} (fresh : k ∉ l.held) (enough : 0 < l.free) :
    Move l ⟨l.free - 1, insert k l.held, l.stock⟩
  /-- reserved units leave the stock -/
  | settle {l : Ledger κ} {ks : Finset κ} (reserved : ks ⊆ l.held) :
    Move l ⟨l.free, l.held \ ks, l.stock - ks.card⟩
  /-- a unit comes back -/
  | restock (l : Ledger κ) : Move l ⟨l.free + 1, l.held, l.stock + 1⟩

/-- No unit is missing and none is sold twice. -/
structure Balanced (l : Ledger κ) : Prop where
  free_nonneg : 0 ≤ l.free
  balance : l.free + l.held.card = l.stock

/-- How many units there are too many. -/
def excess (l : Ledger κ) : ℤ := l.free + l.held.card - l.stock

variable {l l' : Ledger κ}

omit [DecidableEq κ] in
theorem Balanced.stock_nonneg (h : l.Balanced) : 0 ≤ l.stock := by
  have := h.free_nonneg
  have := h.balance
  omega

omit [DecidableEq κ] in
/-- **A balanced ledger covers every settlement.** -/
theorem Balanced.covers (h : l.Balanced) {ks : Finset κ} (hks : ks ⊆ l.held) :
    (ks.card : ℤ) ≤ l.stock := by
  have hle := Finset.card_le_card hks
  have := h.free_nonneg
  have := h.balance
  omega

/-- **No move changes the excess.** -/
theorem excess_move (hm : Move l l') : l'.excess = l.excess := by
  unfold excess
  cases hm with
  | idle => rfl
  | @reserve k fresh enough =>
    rw [Finset.card_insert_of_notMem fresh]
    push_cast
    omega
  | @settle ks reserved =>
    have hle := Finset.card_le_card reserved
    rw [Finset.card_sdiff_of_subset reserved]
    push_cast [hle]
    omega
  | restock =>
    simp only
    omega

/-- **Every move keeps the balance.** -/
theorem Balanced.move (h : l.Balanced) (hm : Move l l') : l'.Balanced := by
  have hexcess := excess_move hm
  have hbalance := h.balance
  unfold excess at hexcess
  refine ⟨?_, by omega⟩
  have hfree := h.free_nonneg
  cases hm with
  | idle => exact hfree
  | reserve fresh enough => exact Int.le_sub_one_of_lt enough
  | settle reserved => exact hfree
  | restock => exact Int.le_add_one hfree

end Ledger

/-! ## Exclusive claims -/

/-- At most one claim, and a claimant is marked. -/
structure Exclusive (claims : Finset κ) (marked : Prop) : Prop where
  one : claims.card ≤ 1
  mark : claims.Nonempty → marked

namespace Exclusive

variable {claims : Finset κ} {marked marked' : Prop} {k : κ}

omit [DecidableEq κ] in
theorem empty : Exclusive (∅ : Finset κ) marked :=
  ⟨by simp, fun h => absurd h (by simp)⟩

/-- Whoever is not marked may claim. -/
theorem take (h : Exclusive claims marked) (hm : ¬marked) (hm' : marked') :
    Exclusive (insert k claims) marked' := by
  have hnil : claims = ∅ := by
    by_contra hne
    exact hm (h.mark (Finset.nonempty_iff_ne_empty.mpr hne))
  subst hnil
  exact ⟨by simp, fun _ => hm'⟩

/-- With its claim dropped nothing is left, so the mark may go. -/
theorem drop (h : Exclusive claims marked) (hk : k ∈ claims) :
    Exclusive (claims.erase k) marked' := by
  have hnil : claims.erase k = ∅ := by
    rw [← Finset.card_eq_zero, Finset.card_erase_of_mem hk]
    have := h.one
    omega
  rw [hnil]
  exact empty

omit [DecidableEq κ] in
/-- Fewer claims, or a new mark. -/
theorem mono {claims' : Finset κ} (h : Exclusive claims marked) (hc : claims' ⊆ claims)
    (hm : marked → marked') : Exclusive claims' marked' :=
  ⟨(Finset.card_le_card hc).trans h.one, fun hne => hm (h.mark (hne.mono hc))⟩

end Exclusive

end Hmdp.Lib
