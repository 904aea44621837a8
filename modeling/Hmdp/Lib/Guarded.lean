import Mathlib.Logic.Function.Basic

/-!
# A lock and who is inside

Any number of participants, each in a phase; some phases are inside the section that a lock guards.
`Guarded inside lock f` says that the lock is held by exactly who is inside.

* `Guarded.exclusive`: at most one participant is inside.
* `Guarded.enter`, `Guarded.leave`, `Guarded.stay`: what a participant may do.
-/

namespace Hmdp.Lib

variable {ι φ : Type*} [DecidableEq ι]

/-- The lock is held by the participant inside, and free if there is none. -/
def Guarded (inside : φ → Bool) (lock : Option ι) (f : ι → φ) : Prop :=
  ∀ i, lock = some i ↔ inside (f i) = true

namespace Guarded

variable {inside : φ → Bool} {lock : Option ι} {f : ι → φ} {i j : ι} {x : φ}

omit [DecidableEq ι] in
theorem of_forall (h : ∀ i, inside (f i) = false) : Guarded inside none f := by
  intro i
  rw [h i]
  exact iff_of_false (Option.some_ne_none i).symm Bool.false_ne_true

omit [DecidableEq ι] in
theorem exclusive (h : Guarded inside lock f) (hi : inside (f i) = true)
    (hj : inside (f j) = true) : i = j :=
  Option.some.inj (((h i).mpr hi).symm.trans ((h j).mpr hj))

omit [DecidableEq ι] in
/-- Nobody is inside a free lock. -/
theorem outside (h : Guarded inside (none : Option ι) f) (i : ι) : inside (f i) = false := by
  by_contra hi
  cases (h i).mpr (by simpa using hi)

/-- A participant takes the free lock. -/
theorem enter (h : Guarded inside none f) (hx : inside x = true) :
    Guarded inside (some i) (Function.update f i x) := by
  intro j
  by_cases hj : j = i
  · subst hj
    rw [Function.update_self]
    exact iff_of_true rfl hx
  · rw [Function.update_of_ne hj, h.outside j, Option.some.injEq]
    exact iff_of_false (Ne.symm hj) Bool.false_ne_true

/-- The participant inside leaves, and frees the lock. -/
theorem leave (h : Guarded inside lock f) (hi : inside (f i) = true) (hx : inside x = false) :
    Guarded inside none (Function.update f i x) := by
  refine of_forall fun j => ?_
  by_cases hj : j = i
  · subst hj
    rw [Function.update_self, hx]
  · rw [Function.update_of_ne hj]
    by_contra hin
    exact hj (h.exclusive (by simpa using hin) hi)

/-- A participant stays inside, or outside. -/
theorem stay (h : Guarded inside lock f) (hx : inside x = inside (f i)) :
    Guarded inside lock (Function.update f i x) := by
  intro j
  by_cases hj : j = i
  · subst hj
    rw [Function.update_self, hx]
    exact h j
  · rw [Function.update_of_ne hj]
    exact h j

end Guarded

end Hmdp.Lib
