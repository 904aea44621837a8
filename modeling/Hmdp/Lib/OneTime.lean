import Mathlib.Data.Int.Order.Basic
import Mathlib.Data.List.Nodup
import Mathlib.Logic.Function.Basic

/-!
# One-time tokens with an expiry time

A desk keeps at most one token for each key. A token is issued under a free key, is used by taking
it away from its key, and vanishes when its time is up. `issued` and `used` are the histories.

* `Sound.move`: every move keeps the desk sound.
* `Sound.used_as_issued`, `Sound.live_unique`: what a sound desk promises.
-/

namespace Hmdp.Lib

variable {κ τ : Type*}

/-- A token that has been issued. -/
structure Issue (κ τ : Type*) where
  token : τ
  key : κ
  issuedAt : ℤ
  expiresAt : ℤ

/-- A token that has been used. -/
structure Use (κ τ : Type*) where
  token : τ
  key : κ
  usedAt : ℤ

/-- A token under its key, with the time it expires at. -/
structure Slot (τ : Type*) where
  token : τ
  expiresAt : ℤ

/-- One-time tokens with an expiry, the clock, and what has been issued and used. -/
structure OneTime (κ τ : Type*) where
  now : ℤ
  slot : κ → Option (Slot τ)
  issued : List (Issue κ τ)
  used : List (Use κ τ)

namespace OneTime

variable [DecidableEq κ]

/-- What is left under a key when the clock shows `now`. -/
def left (now : ℤ) (s : Option (Slot τ)) : Option (Slot τ) :=
  s.filter fun slot => decide (now < slot.expiresAt)

/-- What may happen: nothing, an issue, a use, or time passes. -/
inductive Move : OneTime κ τ → OneTime κ τ → Prop
  | idle (d : OneTime κ τ) : Move d d
  /-- a token never issued before is put under a free key -/
  | issue {d : OneTime κ τ} {key : κ} {token : τ} {expiresAt : ℤ}
    (free : d.slot key = none) (fresh : token ∉ d.issued.map Issue.token)
    (later : d.now < expiresAt) :
    Move d { d with
      slot := Function.update d.slot key (some ⟨token, expiresAt⟩)
      issued := ⟨token, key, d.now, expiresAt⟩ :: d.issued }
  /-- the token of a key is used up -/
  | use {d : OneTime κ τ} {key : κ} {slot : Slot τ} (held : d.slot key = some slot) :
    Move d { d with
      slot := Function.update d.slot key none
      used := ⟨slot.token, key, d.now⟩ :: d.used }
  /-- time passes -/
  | elapse {d : OneTime κ τ} {now : ℤ} (forward : d.now ≤ now) :
    Move d { d with now := now, slot := fun key => left now (d.slot key) }

/-- A use of the token where and while it was issued. -/
def Use.Matches (u : Use κ τ) (i : Issue κ τ) : Prop :=
  i.token = u.token ∧ i.key = u.key ∧ i.issuedAt ≤ u.usedAt ∧ u.usedAt < i.expiresAt

/-- An issued token that is neither used nor expired. -/
def Live (d : OneTime κ τ) (i : Issue κ τ) : Prop :=
  i ∈ d.issued ∧ d.now < i.expiresAt ∧ i.token ∉ d.used.map Use.token

/-- **The invariant**: nothing is issued or used twice, and the slots hold the live tokens. -/
structure Sound (d : OneTime κ τ) : Prop where
  /-- no token is issued twice -/
  fresh : (d.issued.map Issue.token).Nodup
  past : ∀ i ∈ d.issued, i.issuedAt ≤ d.now
  /-- no token is used twice -/
  once : (d.used.map Use.token).Nodup
  matched : ∀ u ∈ d.used, ∃ i ∈ d.issued, Use.Matches u i
  /-- the slots hold the live tokens -/
  slots : ∀ key slot, d.slot key = some slot ↔
    ∃ i, Live d i ∧ i.key = key ∧ i.token = slot.token ∧ i.expiresAt = slot.expiresAt

variable {d d' : OneTime κ τ}

omit [DecidableEq κ] in
theorem left_eq_some {now : ℤ} {s : Option (Slot τ)} {slot : Slot τ} :
    left now s = some slot ↔ s = some slot ∧ now < slot.expiresAt := by
  rw [left, Option.filter_eq_some_iff, decide_eq_true_eq]

/-! ## What a sound desk promises -/

omit [DecidableEq κ] in
/-- Tokens are issued once, so a token names its issue. -/
theorem Sound.issue_unique (h : d.Sound) {i j : Issue κ τ} (hi : i ∈ d.issued) (hj : j ∈ d.issued)
    (heq : i.token = j.token) : i = j :=
  List.inj_on_of_nodup_map h.fresh hi hj heq

omit [DecidableEq κ] in
/-- **A token is only used under its own key and before it expires.** -/
theorem Sound.used_as_issued (h : d.Sound) {u : Use κ τ} (hu : u ∈ d.used) {i : Issue κ τ}
    (hi : i ∈ d.issued) (heq : i.token = u.token) : Use.Matches u i := by
  obtain ⟨j, hj, hmatch⟩ := h.matched u hu
  rwa [h.issue_unique hi hj (heq.trans hmatch.1.symm)]

omit [DecidableEq κ] in
/-- **At most one token of a key is live.** -/
theorem Sound.live_unique (h : d.Sound) {i j : Issue κ τ} (hi : Live d i) (hj : Live d j)
    (heq : i.key = j.key) : i = j := by
  have hslot := (h.slots i.key ⟨i.token, i.expiresAt⟩).mpr ⟨i, hi, rfl, rfl, rfl⟩
  have hslot' := (h.slots i.key ⟨j.token, j.expiresAt⟩).mpr ⟨j, hj, heq.symm, rfl, rfl⟩
  have hslots := Option.some.inj (hslot.symm.trans hslot')
  exact h.issue_unique hi.1 hj.1 (congrArg Slot.token hslots)

omit [DecidableEq κ] in
theorem Sound.unissued_unused (h : d.Sound) {token : τ}
    (hfresh : token ∉ d.issued.map Issue.token) : token ∉ d.used.map Use.token := by
  intro hused
  obtain ⟨u, hu, rfl⟩ := List.mem_map.mp hused
  obtain ⟨i, hi, hmatch⟩ := h.matched u hu
  exact hfresh (List.mem_map.mpr ⟨i, hi, hmatch.1⟩)

/-! ## Moves -/

theorem Sound.issue (h : d.Sound) {key : κ} {token : τ} {expiresAt : ℤ}
    (free : d.slot key = none) (fresh : token ∉ d.issued.map Issue.token)
    (later : d.now < expiresAt) :
    Sound { d with
      slot := Function.update d.slot key (some ⟨token, expiresAt⟩)
      issued := ⟨token, key, d.now, expiresAt⟩ :: d.issued } where
  fresh := List.nodup_cons.mpr ⟨fresh, h.fresh⟩
  past := by
    intro i hi
    rcases List.mem_cons.mp hi with rfl | hold
    · exact le_refl _
    · exact h.past i hold
  once := h.once
  matched := by
    intro u hu
    obtain ⟨i, hi, hmatch⟩ := h.matched u hu
    exact ⟨i, List.mem_cons_of_mem _ hi, hmatch⟩
  slots := by
    intro other slot
    by_cases hkey : other = key
    · subst hkey
      simp only [Function.update_self, Option.some.injEq]
      constructor
      · rintro rfl
        exact ⟨_, ⟨List.mem_cons_self, later, h.unissued_unused fresh⟩, rfl, rfl, rfl⟩
      · rintro ⟨i, ⟨hi, hlater, hunused⟩, hk, htoken, hexpires⟩
        rcases List.mem_cons.mp hi with rfl | hold
        · obtain ⟨_, _⟩ := slot
          cases htoken
          cases hexpires
          rfl
        · have hslot := (h.slots other slot).mpr ⟨i, ⟨hold, hlater, hunused⟩, hk, htoken, hexpires⟩
          cases free.symm.trans hslot
    · simp only [Function.update_of_ne hkey]
      rw [h.slots other slot]
      constructor
      · rintro ⟨i, ⟨hi, hlater, hunused⟩, hrest⟩
        exact ⟨i, ⟨List.mem_cons_of_mem _ hi, hlater, hunused⟩, hrest⟩
      · rintro ⟨i, ⟨hi, hlater, hunused⟩, hk, hrest⟩
        rcases List.mem_cons.mp hi with rfl | hold
        · exact absurd hk.symm hkey
        · exact ⟨i, ⟨hold, hlater, hunused⟩, hk, hrest⟩

theorem Sound.use (h : d.Sound) {key : κ} {slot : Slot τ} (held : d.slot key = some slot) :
    Sound { d with
      slot := Function.update d.slot key none
      used := ⟨slot.token, key, d.now⟩ :: d.used } := by
  obtain ⟨i, hi, hkey, htoken, hexpires⟩ := (h.slots key slot).mp held
  refine ⟨h.fresh, h.past, List.nodup_cons.mpr ⟨htoken ▸ hi.2.2, h.once⟩, ?_, ?_⟩
  · intro u hu
    rcases List.mem_cons.mp hu with rfl | hold
    · exact ⟨i, hi.1, htoken, hkey, h.past i hi.1, hi.2.1⟩
    · exact h.matched u hold
  · intro other slot'
    by_cases hother : other = key
    · subst hother
      simp only [Function.update_self, reduceCtorEq, false_iff]
      rintro ⟨j, ⟨hj, hlater, hunused⟩, hjkey, -, -⟩
      simp only [List.map_cons, List.mem_cons, not_or] at hunused
      have heq := h.live_unique hi ⟨hj, hlater, hunused.2⟩ (hkey.trans hjkey.symm)
      exact hunused.1 (heq ▸ htoken)
    · simp only [Function.update_of_ne hother]
      rw [h.slots other slot']
      constructor
      · rintro ⟨j, ⟨hj, hlater, hunused⟩, hjkey, hrest⟩
        refine ⟨j, ⟨hj, hlater, ?_⟩, hjkey, hrest⟩
        simp only [List.map_cons, List.mem_cons, not_or]
        refine ⟨fun heq => hother ?_, hunused⟩
        rw [← hjkey, h.issue_unique hj hi.1 (heq.trans htoken.symm), hkey]
      · rintro ⟨j, ⟨hj, hlater, hunused⟩, hjkey, hrest⟩
        simp only [List.map_cons, List.mem_cons, not_or] at hunused
        exact ⟨j, ⟨hj, hlater, hunused.2⟩, hjkey, hrest⟩

omit [DecidableEq κ] in
theorem Sound.elapse (h : d.Sound) {now : ℤ} (forward : d.now ≤ now) :
    Sound { d with now := now, slot := fun key => left now (d.slot key) } where
  fresh := h.fresh
  past := fun i hi => le_trans (h.past i hi) forward
  once := h.once
  matched := h.matched
  slots := by
    intro key slot
    rw [left_eq_some, h.slots key slot]
    constructor
    · rintro ⟨⟨i, ⟨hi, -, hunused⟩, hkey, htoken, hexpires⟩, hnow⟩
      exact ⟨i, ⟨hi, hexpires ▸ hnow, hunused⟩, hkey, htoken, hexpires⟩
    · rintro ⟨i, ⟨hi, hnow, hunused⟩, hkey, htoken, hexpires⟩
      exact ⟨⟨i, ⟨hi, lt_of_le_of_lt forward hnow, hunused⟩, hkey, htoken, hexpires⟩,
        hexpires ▸ hnow⟩

/-- **Every move keeps the desk sound.** -/
theorem Sound.move (h : d.Sound) (hm : Move d d') : d'.Sound := by
  cases hm with
  | idle => exact h
  | issue free fresh later => exact h.issue free fresh later
  | use held => exact h.use held
  | elapse forward => exact h.elapse forward

omit [DecidableEq κ] in
theorem Sound.empty (now : ℤ) : Sound (⟨now, fun _ => none, [], []⟩ : OneTime κ τ) where
  fresh := List.nodup_nil
  past := fun i hi => absurd hi List.not_mem_nil
  once := List.nodup_nil
  matched := fun u hu => absurd hu List.not_mem_nil
  slots := by
    intro key slot
    simp [Live]

end OneTime

end Hmdp.Lib
