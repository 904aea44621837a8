import Hmdp.Lib.Machine
import Mathlib.Data.Finset.Basic
import Mathlib.Data.Multiset.AddSub
import Mathlib.Data.Multiset.UnionInter

/-!
# A supply of names and its user

One machine hands out names, another uses them; a name that has been handed out waits until a step
of the user takes it. A user that relies on fresh names has a guarded step, which is only enabled
for a name it has not used. Beside a supply that hands out no name twice, the guard never blocks:
what the user does is a run of its guarded machine (`supplied_run`).

* `besideStep`: two machines side by side, as one supply of the names of both.
-/

namespace Hmdp.Lib

variable {γ α δ α' σ β ι : Type*}

/-! ## Side by side -/

/-- Either machine makes a step. -/
def besideStep (gstep : γ → α → Option γ) (dstep : δ → α' → Option δ) (s : γ × δ) :
    α ⊕ α' → Option (γ × δ)
  | .inl a => (gstep s.1 a).map fun g => (g, s.2)
  | .inr a => (dstep s.2 a).map fun d => (s.1, d)

/-- The conditions of both on their own steps. -/
def BesideCondition (P : γ → α → Prop) (Q : δ → α' → Prop) (s : γ × δ) : α ⊕ α' → Prop
  | .inl a => P s.1 a
  | .inr a => Q s.2 a

theorem beside_preserves {gstep : γ → α → Option γ} {dstep : δ → α' → Option δ}
    {P : γ → α → Prop} {Q : δ → α' → Prop} {I : γ → Prop} {J : δ → Prop}
    (hI : Preserves gstep P I) (hJ : Preserves dstep Q J) :
    Preserves (besideStep gstep dstep) (BesideCondition P Q) fun s => I s.1 ∧ J s.2 := by
  intro s a t ha hs hstep
  cases a with
  | inl a =>
    obtain ⟨g, hg, rfl⟩ := Option.map_eq_some_iff.mp hstep
    exact ⟨hI ha hs.1 hg, hs.2⟩
  | inr a =>
    obtain ⟨d, hd, rfl⟩ := Option.map_eq_some_iff.mp hstep
    exact ⟨hs.1, hJ ha hs.2 hd⟩

/-! ## A user of the names -/

/-- The supply, its user, and the names handed out and not taken yet. -/
structure Supplied (γ σ ι : Type*) where
  supply : γ
  user : σ
  unused : Multiset ι

section
variable [DecidableEq ι] (gstep : γ → α → Option γ) (out : γ → Multiset ι)
  (step : σ → β → Option σ) (uses : β → Option ι)

/-- A step of the user that uses a name takes one that waits. -/
def suppliedStep (s : Supplied γ σ ι) : α ⊕ β → Option (Supplied γ σ ι)
  | .inl a =>
    (gstep s.supply a).map fun g =>
      { s with supply := g, unused := s.unused + (out g - out s.supply) }
  | .inr b =>
    match uses b with
    | none => (step s.user b).map fun u => { s with user := u }
    | some i =>
      if i ∈ s.unused then
        (step s.user b).map fun u => { s with user := u, unused := s.unused.erase i }
      else none

/-- The condition on the steps of the supply. -/
def SupplyCondition (P : γ → α → Prop) (s : Supplied γ σ ι) : α ⊕ β → Prop
  | .inl a => P s.supply a
  | .inr _ => True

instance decidableSupplyCondition {P : γ → α → Prop} [∀ g a, Decidable (P g a)]
    (s : Supplied γ σ ι) (a : α ⊕ β) : Decidable (SupplyCondition P s a) :=
  match a with
  | .inl a => inferInstanceAs (Decidable (P s.supply a))
  | .inr _ => isTrue trivial

/-- The names that wait and the names in use have been handed out, each at most once. -/
def Fresh (I : γ → Prop) (used : σ → Finset ι) (s : Supplied γ σ ι) : Prop :=
  I s.supply ∧ s.unused + (used s.user).val ≤ out s.supply

/-- A supply that hands out no name twice. -/
structure NoneTwice (P : γ → α → Prop) (I : γ → Prop) : Prop where
  keeps : Preserves gstep P I
  nodup : ∀ g, I g → (out g).Nodup
  grows : ∀ g a g', gstep g a = some g' → out g ≤ out g'

/-- A user of names; where it uses no name again, it is the guarded one. -/
structure UsesNames (guarded : σ → β → Option σ) (used : σ → Finset ι) : Prop where
  used_none : ∀ u b u', step u b = some u' → uses b = none → used u' = used u
  used_some : ∀ u b u' i, step u b = some u' → uses b = some i → used u' = insert i (used u)
  guard : ∀ u b, (∀ i, uses b = some i → i ∉ used u) → guarded u b = step u b

end

variable [DecidableEq ι] {gstep : γ → α → Option γ} {out : γ → Multiset ι}
  {step guarded : σ → β → Option σ} {uses : β → Option ι} {used : σ → Finset ι}
  {P : γ → α → Prop} {I : γ → Prop} {s t : Supplied γ σ ι}

omit [DecidableEq ι] in
/-- A name that waits is not in use. -/
theorem Fresh.not_used (hg : NoneTwice gstep out P I) (hs : Fresh out I used s) {i : ι}
    (hi : i ∈ s.unused) : i ∉ used s.user := by
  intro hused
  have hnodup := Multiset.nodup_of_le hs.2 (hg.nodup s.supply hs.1)
  exact Multiset.disjoint_left.mp (Multiset.nodup_add.mp hnodup).2.2 hi hused

theorem fresh_supply (hg : NoneTwice gstep out P I) (hs : Fresh out I used s) {a : α} {g : γ}
    (ha : P s.supply a) (hstep : gstep s.supply a = some g) :
    Fresh out I used { s with supply := g, unused := s.unused + (out g - out s.supply) } := by
  refine ⟨hg.keeps ha hs.1 hstep, ?_⟩
  calc s.unused + (out g - out s.supply) + (used s.user).val
      = (out g - out s.supply) + (s.unused + (used s.user).val) := by
        rw [Multiset.add_comm s.unused, Multiset.add_assoc]
    _ ≤ (out g - out s.supply) + out s.supply := Multiset.add_le_add_iff_left.mpr hs.2
    _ = out g := Multiset.sub_add_cancel (hg.grows _ _ _ hstep)

theorem fresh_use (hg : NoneTwice gstep out P I) (hs : Fresh out I used s) {i : ι} {u : σ}
    (hi : i ∈ s.unused) (hused : used u = insert i (used s.user)) :
    Fresh out I used { s with user := u, unused := s.unused.erase i } := by
  refine ⟨hs.1, ?_⟩
  have hsum : s.unused.erase i + (used u).val = s.unused + (used s.user).val := by
    rw [hused, Finset.insert_val_of_notMem (hs.not_used hg hi), Multiset.add_cons,
      ← Multiset.cons_add, Multiset.cons_erase hi]
  exact hsum.le.trans hs.2

/-- **The guard never blocks.** What the user does beside the supply is a run of its guarded
machine. -/
theorem supplied_run (hg : NoneTwice gstep out P I) (hu : UsesNames step uses guarded used)
    {as : List (α ⊕ β)} (hs : Fresh out I used s)
    (has : Along (suppliedStep gstep out step uses) (SupplyCondition P) s as)
    (hr : run (suppliedStep gstep out step uses) s as = some t) :
    run guarded s.user (as.filterMap Sum.getRight?) = some t.user ∧ Fresh out I used t := by
  induction as generalizing s with
  | nil =>
    cases hr
    exact ⟨rfl, hs⟩
  | cons a as ih =>
    obtain ⟨v, hv, hr⟩ := run_cons.mp hr
    have hrest := has.2 v hv
    cases a with
    | inl a =>
      obtain ⟨g, hstep, rfl⟩ := Option.map_eq_some_iff.mp hv
      have hfresh := fresh_supply hg hs has.1 hstep
      exact ih (s := { s with supply := g, unused := s.unused + (out g - out s.supply) }) hfresh
        hrest hr
    | inr b =>
      rw [List.filterMap_cons_some (by rfl)]
      cases huses : uses b with
      | none =>
        simp only [suppliedStep, huses] at hv
        obtain ⟨u, hstep, rfl⟩ := Option.map_eq_some_iff.mp hv
        have hfresh : Fresh out I used { s with user := u } := by
          refine ⟨hs.1, ?_⟩
          rw [hu.used_none _ _ _ hstep huses]
          exact hs.2
        obtain ⟨hrun, hfresh'⟩ := ih hfresh hrest hr
        refine ⟨run_cons.mpr ⟨u, ?_, hrun⟩, hfresh'⟩
        rw [hu.guard _ _ fun i hi => by rw [huses] at hi; cases hi]
        exact hstep
      | some i =>
        simp only [suppliedStep, huses] at hv
        split at hv
        · rename_i hi
          obtain ⟨u, hstep, rfl⟩ := Option.map_eq_some_iff.mp hv
          obtain ⟨hrun, hfresh'⟩ :=
            ih (fresh_use hg hs hi (hu.used_some _ _ _ _ hstep huses)) hrest hr
          refine ⟨run_cons.mpr ⟨u, ?_, hrun⟩, hfresh'⟩
          rw [hu.guard _ _ fun j hj => ?_]
          · exact hstep
          · rw [huses] at hj
            cases hj
            exact hs.not_used hg hi
        · cases hv

end Hmdp.Lib
