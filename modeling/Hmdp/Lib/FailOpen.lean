import Mathlib.Data.Set.Basic

/-!
# Fail-open gates

Several keepers share one filter without false negatives. A strict keeper lets a key through if
the filter holds it, and possibly if it does not; a keeper that is not strict lets every key
through. The gate is `Sound` if no keeper can turn a known key away.

* `sound_iff_admits`: soundness is what a single answer can show.
* `Sound.step`: what a step must not do, namely make a keeper strict, or add a known key, while a
  key is missing.
-/

namespace Hmdp.Lib

variable {ι α : Type*}

/-- Keys that must pass, keys the filter holds, and the keepers that ask it. -/
structure Gate (ι α : Type*) where
  known : Set α
  held : Set α
  strict : ι → Prop

namespace Gate

/-- The answers the keeper can give for a key. -/
def Admits (g : Gate ι α) (i : ι) (a : α) (pass : Prop) : Prop :=
  (¬g.strict i → pass) ∧ (a ∈ g.held → pass)

/-- No strict keeper asks a filter in which a known key is missing. -/
def Sound (g : Gate ι α) : Prop := ∀ i, g.strict i → g.known ⊆ g.held

variable {g g' : Gate ι α}

/-- **A gate is sound iff every answer for a known key is yes.** -/
theorem sound_iff_admits :
    g.Sound ↔ ∀ i, ∀ a ∈ g.known, ∀ pass : Prop, g.Admits i a pass → pass := by
  constructor
  · intro h i a ha pass hpass
    by_cases hi : g.strict i
    · exact hpass.2 (h i hi ha)
    · exact hpass.1 hi
  · intro h i hi a ha
    exact h i a ha (a ∈ g.held) ⟨fun hn => absurd hi hn, fun hheld => hheld⟩

/-- A gate without strict keepers lets everything through. -/
theorem sound_of_open (h : ∀ i, ¬g.strict i) : g.Sound := fun i hi => absurd hi (h i)

/-- **The step rule.** The filter forgets nothing, and each keeper that is strict afterwards either
was, with no key known that is not held or was known before, or finds every known key held. -/
theorem Sound.step (h : g.Sound) (hheld : g.held ⊆ g'.held)
    (hstrict : ∀ i, g'.strict i →
      (g.strict i ∧ g'.known ⊆ g.known ∪ g'.held) ∨ g'.known ⊆ g'.held) : g'.Sound := by
  intro i hi
  rcases hstrict i hi with ⟨hwas, hknown⟩ | hknown
  · intro a ha
    rcases hknown ha with hold | hnew
    · exact hheld (h i hwas hold)
    · exact hnew
  · exact hknown

end Gate

end Hmdp.Lib
