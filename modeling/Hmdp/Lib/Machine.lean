import Mathlib.Logic.Function.Basic

/-!
# Labelled machines and their runs

A machine is a step function `σ → α → Option σ`: `none` where the label is not enabled. A run is
a list of labels executed from a state. `run_invariant` is the induction every safety result
uses: a predicate that each step of the run preserves holds at its end. The steps may be
restricted by a condition on the state before them (`Along`), so that a result about the runs
whose steps all avoid some branch is the same induction.
-/

namespace Hmdp.Lib

variable {σ α : Type*}

/-- Execute the labels in order; `none` as soon as one is not enabled. -/
def run (step : σ → α → Option σ) : σ → List α → Option σ
  | s, [] => some s
  | s, a :: as => (step s a).bind fun t => run step t as

/-- Every step the labels take from `s` meets `P` in the state before it. -/
def Along (step : σ → α → Option σ) (P : σ → α → Prop) : σ → List α → Prop
  | _, [] => True
  | s, a :: as => P s a ∧ ∀ t, step s a = some t → Along step P t as

/-- A step that meets `P` keeps `I`. -/
def Preserves (step : σ → α → Option σ) (P : σ → α → Prop) (I : σ → Prop) : Prop :=
  ∀ ⦃s a t⦄, P s a → I s → step s a = some t → I t

variable {step : σ → α → Option σ} {P : σ → α → Prop} {I : σ → Prop}

@[simp] theorem run_nil (s : σ) : run step s [] = some s := rfl

theorem run_cons {s t : σ} {a : α} {as : List α} :
    run step s (a :: as) = some t ↔ ∃ u, step s a = some u ∧ run step u as = some t :=
  Option.bind_eq_some_iff

theorem run_append {s t : σ} {as bs : List α} :
    run step s (as ++ bs) = some t ↔ ∃ u, run step s as = some u ∧ run step u bs = some t := by
  induction as generalizing s with
  | nil => simp
  | cons a as ih =>
    rw [List.cons_append, run_cons]
    constructor
    · rintro ⟨u, hu, hr⟩
      obtain ⟨w, hw, hw'⟩ := ih.mp hr
      exact ⟨w, run_cons.mpr ⟨u, hu, hw⟩, hw'⟩
    · rintro ⟨w, hw, hw'⟩
      obtain ⟨u, hu, hr⟩ := run_cons.mp hw
      exact ⟨u, hu, ih.mpr ⟨w, hr, hw'⟩⟩

theorem run_single {s t : σ} {a : α} : run step s [a] = some t ↔ step s a = some t := by
  rw [run_cons]
  constructor
  · rintro ⟨u, hu, ht⟩
    cases ht
    exact hu
  · exact fun h => ⟨t, h, rfl⟩

/-- **The run rule.** What holds at the start and is preserved by every step that meets `P`
holds at the end of every run whose steps all meet `P`. -/
theorem run_invariant (hI : Preserves step P I) {s t : σ} {as : List α}
    (hP : Along step P s as) (hs : I s) (hr : run step s as = some t) : I t := by
  induction as generalizing s with
  | nil =>
    cases hr
    exact hs
  | cons a as ih =>
    obtain ⟨u, hu, hr⟩ := run_cons.mp hr
    exact ih (hP.2 u hu) (hI hP.1 hs hu) hr

/-- A decidable condition is decided along a run by executing it. -/
instance decidableAlong [∀ s a, Decidable (P s a)] :
    ∀ (s : σ) (as : List α), Decidable (Along step P s as)
  | _, [] => isTrue trivial
  | s, a :: as =>
    match h : step s a with
    | none =>
      decidable_of_iff (P s a) ⟨fun hp => ⟨hp, fun t ht => absurd (h.symm.trans ht) (by simp)⟩,
        fun hp => hp.1⟩
    | some t =>
      have := decidableAlong t as
      decidable_of_iff (P s a ∧ Along step P t as)
        ⟨fun hp => ⟨hp.1, fun u hu => Option.some.inj (h.symm.trans hu) ▸ hp.2⟩,
          fun hp => ⟨hp.1, hp.2 t h⟩⟩

/-- A condition that implies another on every state of an invariant it keeps. -/
theorem along_mono {Q : σ → α → Prop} (h : ∀ ⦃s a⦄, I s → P s a → Q s a)
    (hI : Preserves step P I) {s : σ} {as : List α} (hs : I s) (has : Along step P s as) :
    Along step Q s as := by
  induction as generalizing s with
  | nil => trivial
  | cons a as ih => exact ⟨h hs has.1, fun t ht => ih (hI has.1 hs ht) (has.2 t ht)⟩

/-- Two conditions that agree on every state of an invariant the steps keep hold along the same
runs. -/
theorem along_congr {Q : σ → α → Prop} (h : ∀ ⦃s a⦄, I s → (P s a ↔ Q s a))
    (hI : Preserves step P I) {s : σ} {as : List α} (hs : I s) :
    Along step P s as ↔ Along step Q s as :=
  ⟨along_mono (fun _ _ hs => (h hs).mp) hI hs, along_mono (fun _ _ hs => (h hs).mpr)
    (fun _ _ _ hq hs ht => hI ((h hs).mpr hq) hs ht) hs⟩

/-- Two conditions beside each other. -/
theorem along_and {Q : σ → α → Prop} {s : σ} {as : List α} :
    Along step (fun s a => P s a ∧ Q s a) s as ↔ Along step P s as ∧ Along step Q s as := by
  induction as generalizing s with
  | nil => simp [Along]
  | cons a as ih =>
    constructor
    · rintro ⟨⟨hp, hq⟩, hrest⟩
      exact ⟨⟨hp, fun t ht => (ih.mp (hrest t ht)).1⟩, hq, fun t ht => (ih.mp (hrest t ht)).2⟩
    · rintro ⟨⟨hp, hps⟩, hq, hqs⟩
      exact ⟨⟨hp, hq⟩, fun t ht => ih.mpr ⟨hps t ht, hqs t ht⟩⟩

/-- The first steps of a run. -/
theorem along_take {s : σ} {as bs : List α} (h : Along step P s as) (hbs : bs <+: as) :
    Along step P s bs := by
  induction bs generalizing s as with
  | nil => trivial
  | cons b bs ih =>
    obtain ⟨rest, rfl⟩ := hbs
    exact ⟨h.1, fun t ht => ih (h.2 t ht) (List.prefix_append bs rest)⟩

/-- The conditions of two runs one after the other. -/
theorem along_append {s t : σ} {as bs : List α} (h : Along step P s as)
    (hr : run step s as = some t) (h' : Along step P t bs) : Along step P s (as ++ bs) := by
  induction as generalizing s with
  | nil =>
    cases hr
    exact h'
  | cons a as ih =>
    obtain ⟨u, hu, hr⟩ := run_cons.mp hr
    refine ⟨h.1, fun v hv => ?_⟩
    cases hu.symm.trans hv
    exact ih (h.2 u hu) hr

/-- Labels that meet the condition in every state. -/
theorem along_of_forall {as : List α} (h : ∀ a ∈ as, ∀ s, P s a) (s : σ) : Along step P s as := by
  induction as generalizing s with
  | nil => trivial
  | cons a as ih =>
    exact ⟨h a List.mem_cons_self s, fun t _ => ih (fun b hb => h b (List.mem_cons_of_mem a hb)) t⟩

theorem along_true (s : σ) (as : List α) : Along step (fun _ _ => True) s as :=
  along_of_forall (fun _ _ _ => trivial) s

/-- The run rule with no condition on the steps. -/
theorem run_invariant' (hI : ∀ ⦃s a t⦄, I s → step s a = some t → I t) {s t : σ} {as : List α}
    (hs : I s) (hr : run step s as = some t) : I t :=
  run_invariant (P := fun _ _ => True) (fun _ _ _ _ hs ht => hI hs ht) (along_true s as) hs hr

/-- When, in the runs whose steps all meet `Q` and beside an invariant `J` of those that meet `P`
too, a step keeps `I` exactly if it meets `P`, the steps of a run all meet `P` iff `I` holds in
every state the run reaches. -/
theorem along_iff_invariant_within {J : σ → Prop} {Q : σ → α → Prop}
    (hJ : Preserves step (fun s a => Q s a ∧ P s a) J)
    (h : ∀ ⦃s a t⦄, Q s a → J s → I s → step s a = some t → (I t ↔ P s a)) {s t : σ} {as : List α}
    (hQ : Along step Q s as) (hj : J s) (hs : I s) (hr : run step s as = some t) :
    Along step P s as ↔ ∀ bs u, bs <+: as → run step s bs = some u → I u := by
  induction as generalizing s with
  | nil =>
    refine ⟨fun _ bs u hbs hu => ?_, fun _ => trivial⟩
    rw [List.prefix_nil.mp hbs] at hu
    cases hu
    exact hs
  | cons a as ih =>
    obtain ⟨v, hv, hrest⟩ := run_cons.mp hr
    constructor
    · rintro ⟨ha, has⟩ bs u hprefix hu
      cases bs with
      | nil =>
        cases hu
        exact hs
      | cons b bs =>
        obtain ⟨rfl, hbs⟩ := List.cons_prefix_cons.mp hprefix
        obtain ⟨w, hw, hu⟩ := run_cons.mp hu
        cases hv.symm.trans hw
        exact (ih (hQ.2 v hv) (hJ ⟨hQ.1, ha⟩ hj hv) ((h hQ.1 hj hs hv).mpr ha) hrest).mp
          (has v hv) bs u hbs hu
    · intro hall
      have hv' : I v := hall [a] v (by simp) (run_single.mpr hv)
      have ha := (h hQ.1 hj hs hv).mp hv'
      refine ⟨ha, fun w hw => ?_⟩
      cases hv.symm.trans hw
      exact (ih (hQ.2 v hv) (hJ ⟨hQ.1, ha⟩ hj hv) hv' hrest).mpr fun bs u hbs hu =>
        hall (a :: bs) u (List.cons_prefix_cons.mpr ⟨rfl, hbs⟩) (run_cons.mpr ⟨v, hv, hu⟩)

/-- The same with no condition on the runs. -/
theorem along_iff_invariant {J : σ → Prop} (hJ : Preserves step P J)
    (h : ∀ ⦃s a t⦄, J s → I s → step s a = some t → (I t ↔ P s a)) {s t : σ} {as : List α}
    (hj : J s) (hs : I s) (hr : run step s as = some t) :
    Along step P s as ↔ ∀ bs u, bs <+: as → run step s bs = some u → I u :=
  along_iff_invariant_within (fun _ _ _ hP hj ht => hJ hP.2 hj ht)
    (fun _ _ _ _ hj hs ht => h hj hs ht) (along_true s as) hj hs hr

/-- A quantity tracked along a run whose steps all meet `Q`: when every such step keeps it `ok`
exactly if it meets `P`, it is `ok` at the end iff it was at the start and all steps met `P`. -/
theorem run_tracked {β : Type*} {M : β → σ → Prop} {ok : β → Prop} {Q : σ → α → Prop}
    (h : ∀ ⦃b s a t⦄, Q s a → M b s → step s a = some t →
      ∃ b', M b' t ∧ (ok b' ↔ ok b ∧ P s a))
    {b : β} {s t : σ} {as : List α} (hQ : Along step Q s as) (hb : M b s)
    (hr : run step s as = some t) : ∃ b', M b' t ∧ (ok b' ↔ ok b ∧ Along step P s as) := by
  induction as generalizing b s with
  | nil =>
    cases hr
    exact ⟨b, hb, ⟨fun hok => ⟨hok, trivial⟩, And.left⟩⟩
  | cons a as ih =>
    obtain ⟨u, hu, hr⟩ := run_cons.mp hr
    obtain ⟨b', hb', hiff⟩ := h hQ.1 hb hu
    obtain ⟨b'', hb'', hiff'⟩ := ih (hQ.2 u hu) hb' hr
    refine ⟨b'', hb'', hiff'.trans ?_⟩
    constructor
    · rintro ⟨hok, hrest⟩
      obtain ⟨hok, ha⟩ := hiff.mp hok
      refine ⟨hok, ha, fun v hv => ?_⟩
      cases hu.symm.trans hv
      exact hrest
    · rintro ⟨hok, ha, hrest⟩
      exact ⟨hiff.mpr ⟨hok, ha⟩, hrest u hu⟩

end Hmdp.Lib
