import Hmdp.Lib.Machine

/-!
# Refinement

A machine of which only some steps show anything, against an abstract machine whose labels are
the events shown. A simulation relates the states of the two so that a step which shows an event
is matched by that event, and a step which shows nothing leaves the abstract state where it is.
What a whole run shows is then a run of the abstract machine (`simulates_run`), so whatever holds
of every abstract run holds of what the machine shows. Conversely, where each event the abstract
machine allows can be brought about by some steps, each of its runs is shown (`realises_run`), and
the abstract machine promises nothing that the machine cannot do.
-/

namespace Hmdp.Lib

variable {σ τ α ε : Type*}

/-- What a run shows, in order. -/
def trace (step : σ → α → Option σ) (shows : σ → α → Option ε) : σ → List α → List ε
  | _, [] => []
  | s, a :: as => (shows s a).toList ++ ((step s a).map fun t => trace step shows t as).getD []

/-- Each step from related states is matched by at most one step of the abstract machine, the
event it shows. -/
def Simulates (step : σ → α → Option σ) (shows : σ → α → Option ε)
    (abstractStep : τ → ε → Option τ) (R : σ → τ → Prop) : Prop :=
  ∀ ⦃s a t x⦄, R s x → step s a = some t →
    ∃ y, run abstractStep x (shows s a).toList = some y ∧ R t y

variable {step : σ → α → Option σ} {shows : σ → α → Option ε} {abstractStep : τ → ε → Option τ}
  {R : σ → τ → Prop}

/-- **Simulation lifts to runs**, whose steps may be restricted. -/
theorem simulates_along {P : σ → α → Prop}
    (h : ∀ ⦃s a t x⦄, P s a → R s x → step s a = some t →
      ∃ y, run abstractStep x (shows s a).toList = some y ∧ R t y)
    {s t : σ} {x : τ} {as : List α} (hP : Along step P s as) (hx : R s x)
    (hr : run step s as = some t) :
    ∃ y, run abstractStep x (trace step shows s as) = some y ∧ R t y := by
  induction as generalizing s x with
  | nil =>
    cases hr
    exact ⟨x, rfl, hx⟩
  | cons a as ih =>
    obtain ⟨u, hu, hr⟩ := run_cons.mp hr
    obtain ⟨y, hy, hRy⟩ := h hP.1 hx hu
    obtain ⟨z, hz, hRz⟩ := ih (hP.2 u hu) hRy hr
    refine ⟨z, ?_, hRz⟩
    rw [trace, hu]
    exact run_append.mpr ⟨y, hy, hz⟩

/-- The same with no condition on the steps. -/
theorem simulates_run (h : Simulates step shows abstractStep R) {s t : σ} {x : τ} {as : List α}
    (hx : R s x) (hr : run step s as = some t) :
    ∃ y, run abstractStep x (trace step shows s as) = some y ∧ R t y :=
  simulates_along (P := fun _ _ => True) (fun _ _ _ _ _ hx hs => h hx hs) (along_true s as) hx hr

theorem trace_append {s t : σ} {as : List α} (hr : run step s as = some t) (bs : List α) :
    trace step shows s (as ++ bs) = trace step shows s as ++ trace step shows t bs := by
  induction as generalizing s with
  | nil =>
    cases hr
    rfl
  | cons a as ih =>
    obtain ⟨u, hu, hr⟩ := run_cons.mp hr
    simp only [List.cons_append, trace, hu, Option.map_some, Option.getD_some, ih hr,
      List.append_assoc]

/-- Steps that show nothing. -/
theorem trace_silent {P : σ → α → Prop} (h : ∀ s a, P s a → shows s a = none) {s : σ}
    {as : List α} (has : Along step P s as) : trace step shows s as = [] := by
  induction as generalizing s with
  | nil => rfl
  | cons a as ih =>
    rw [trace, h s a has.1]
    cases hs : step s a with
    | none => rfl
    | some t => exact ih (has.2 t hs)

/-- From related states each allowed event can be shown, and nothing else. -/
def Realises (step : σ → α → Option σ) (shows : σ → α → Option ε)
    (abstractStep : τ → ε → Option τ) (allowed : ε → Prop) (R : σ → τ → Prop) : Prop :=
  ∀ ⦃s x e y⦄, R s x → allowed e → abstractStep x e = some y →
    ∃ as t, run step s as = some t ∧ trace step shows s as = [e] ∧ R t y

/-- **Every abstract run is shown.** -/
theorem realises_run {allowed : ε → Prop} (h : Realises step shows abstractStep allowed R) {s : σ}
    {x y : τ} {events : List ε} (hx : R s x) (hall : ∀ e ∈ events, allowed e)
    (hr : run abstractStep x events = some y) :
    ∃ as t, run step s as = some t ∧ trace step shows s as = events ∧ R t y := by
  induction events generalizing s x with
  | nil =>
    cases hr
    exact ⟨[], s, rfl, rfl, hx⟩
  | cons e events ih =>
    obtain ⟨z, hz, hr⟩ := run_cons.mp hr
    obtain ⟨as, u, hu, htrace, hRu⟩ := h hx (hall e List.mem_cons_self) hz
    obtain ⟨bs, t, ht, htrace', hRt⟩ := ih hRu (fun e he => hall e (List.mem_cons_of_mem _ he)) hr
    refine ⟨as ++ bs, t, run_append.mpr ⟨u, hu, ht⟩, ?_, hRt⟩
    rw [trace_append hu, htrace, htrace', List.singleton_append]

end Hmdp.Lib
