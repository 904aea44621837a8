import Mathlib.Data.Int.Order.Basic
import Mathlib.Logic.Function.Basic

/-!
# Keys that expire

A key holds a value and possibly the time it expires at. Once the clock shows that time the key is
gone; giving it a new expiry time does nothing to a key that is gone.

* `left_eq_some`, `expire_eq_some`: what time and `EXPIRE` leave of a key.
-/

namespace Hmdp.Lib

variable {ν : Type*}

/-- The contents of a key; `none` for no expiry time. -/
structure Expiring (ν : Type*) where
  value : ν
  deadline : Option ℤ

namespace Expiring

/-- The key still exists when the clock shows `now`. -/
def alive (now : ℤ) (e : Expiring ν) : Bool := e.deadline.all fun d => decide (now < d)

/-- What is left of a key when the clock shows `now`. -/
def left (now : ℤ) (key : Option (Expiring ν)) : Option (Expiring ν) := key.filter (alive now)

/-- `EXPIRE`, to the given time. -/
def expire (deadline : ℤ) (key : Option (Expiring ν)) : Option (Expiring ν) :=
  key.map fun e => { e with deadline := some deadline }

variable {now deadline : ℤ} {key : Option (Expiring ν)} {e : Expiring ν}

theorem left_eq_some : left now key = some e ↔ key = some e ∧ alive now e = true :=
  Option.filter_eq_some_iff

theorem eq_of_left (h : left now key = some e) : key = some e := (left_eq_some.mp h).1

theorem expire_eq_some :
    expire deadline key = some e ↔ ∃ old, key = some old ∧ e = ⟨old.value, some deadline⟩ := by
  unfold expire
  rw [Option.map_eq_some_iff]
  constructor
  · rintro ⟨old, hold, rfl⟩
    exact ⟨old, hold, rfl⟩
  · rintro ⟨old, hold, rfl⟩
    exact ⟨old, hold, rfl⟩

end Expiring

end Hmdp.Lib
