import Hmdp.Lib.Machine
import Mathlib.Order.Basic

/-!
# What a machine can reach by certain steps

`Reaches step P s t`: some run from `s` to `t` whose steps all meet `P`. This is the existential
half of progress: that the steps of `P` can bring the machine somewhere, whatever state it is in.
`reaches_of_rank` is its rule: a state that is not yet there can reach one of lower rank.
-/

namespace Hmdp.Lib

variable {σ α : Type*} {step : σ → α → Option σ} {P : σ → α → Prop} {I : σ → Prop} {s t u : σ}

/-- Some run whose steps all meet `P` leads from `s` to `t`. -/
def Reaches (step : σ → α → Option σ) (P : σ → α → Prop) (s t : σ) : Prop :=
  ∃ as, Along step P s as ∧ run step s as = some t

namespace Reaches

theorem refl (s : σ) : Reaches step P s s := ⟨[], trivial, rfl⟩

theorem single {a : α} (hP : P s a) (h : step s a = some t) : Reaches step P s t :=
  ⟨[a], ⟨hP, fun _ _ => trivial⟩, run_single.mpr h⟩

theorem trans (h : Reaches step P s t) (h' : Reaches step P t u) : Reaches step P s u := by
  obtain ⟨as, has, hr⟩ := h
  obtain ⟨bs, hbs, hr'⟩ := h'
  exact ⟨as ++ bs, along_append has hr hbs, run_append.mpr ⟨t, hr, hr'⟩⟩

/-- What the steps of `P` keep. -/
theorem keeps (hI : Preserves step P I) (h : Reaches step P s t) (hs : I s) : I t := by
  obtain ⟨as, has, hr⟩ := h
  exact run_invariant hI has hs hr

end Reaches

/-- **Progress by rank.** If every state of `I` that misses the goal can reach a state of `I` of
lower rank, every state of `I` can reach the goal. -/
theorem reaches_of_rank (step : σ → α → Option σ) (P : σ → α → Prop) (I goal : σ → Prop)
    (rank : σ → ℕ)
    (h : ∀ s, I s → ¬goal s → ∃ t, Reaches step P s t ∧ I t ∧ rank t < rank s)
    {s : σ} (hs : I s) : ∃ t, Reaches step P s t ∧ I t ∧ goal t := by
  induction hn : rank s using Nat.strongRecOn generalizing s with
  | ind n ih =>
    by_cases hg : goal s
    · exact ⟨s, .refl s, hs, hg⟩
    · obtain ⟨t, ht, hIt, hlt⟩ := h s hs hg
      obtain ⟨u, hu, hIu, hgu⟩ := ih (rank t) (hn ▸ hlt) hIt rfl
      exact ⟨u, ht.trans hu, hIu, hgu⟩

end Hmdp.Lib
