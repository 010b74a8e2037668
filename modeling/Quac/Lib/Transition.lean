import Mathlib.Tactic.SplitIfs
import Mathlib.Tactic.TypeStar

/-!
Labelled transition systems with an executable step.  A label carries every
choice the step leaves open: the thread that moves and whatever the environment
hands to it.
-/

namespace Quac.Lib.Transition

structure System (σ ι : Type*) where
  initial : σ → Prop
  /-- `none` when the labelled step is not enabled. -/
  step : σ → ι → Option σ

namespace System

variable {σ ι : Type*} (sys : System σ ι)

/-- The states reached by steps that each meet `cond` where they are taken. -/
inductive ReachableVia (cond : σ → ι → Prop) : σ → Prop
  | initial {s : σ} (h : sys.initial s) : ReachableVia cond s
  | step {s s' : σ} {a : ι} (hs : ReachableVia cond s) (hcond : cond s a)
      (hstep : sys.step s a = some s') : ReachableVia cond s'

def Reachable : σ → Prop :=
  sys.ReachableVia fun _ _ => True

def run : σ → List ι → Option σ
  | s, [] => some s
  | s, a :: labels => (sys.step s a).bind fun s' => run s' labels

/-- A run that stops where a step does not pass `check`. -/
def runChecked (check : σ → ι → Bool) : σ → List ι → Option σ
  | s, [] => some s
  | s, a :: labels =>
    if check s a then (sys.step s a).bind fun s' => runChecked check s' labels else none

/-- The system with a history variable, which starts as `start` and takes note of
each step. -/
def observed {γ : Type*} (start : γ) (observe : σ → ι → γ → γ) : System (σ × γ) ι where
  initial s := sys.initial s.1 ∧ s.2 = start
  step s a := (sys.step s.1 a).map fun s' => (s', observe s.1 a s.2)

variable {sys} {cond : σ → ι → Prop}

theorem ReachableVia.invariant {inv : σ → Prop} (hinitial : ∀ s, sys.initial s → inv s)
    (hstep : ∀ s a s', inv s → cond s a → sys.step s a = some s' → inv s')
    {s : σ} (hs : sys.ReachableVia cond s) : inv s := by
  induction hs with
  | initial h => exact hinitial _ h
  | step _ hcond h ih => exact hstep _ _ _ ih hcond h

theorem ReachableVia.reachable {s : σ} (hs : sys.ReachableVia cond s) : sys.Reachable s := by
  induction hs with
  | initial h => exact .initial h
  | step _ _ h ih => exact .step ih trivial h

theorem Reachable.invariant {inv : σ → Prop} (hinitial : ∀ s, sys.initial s → inv s)
    (hstep : ∀ s a s', inv s → sys.step s a = some s' → inv s')
    {s : σ} (hs : sys.Reachable s) : inv s :=
  ReachableVia.invariant hinitial (fun s a s' h _ => hstep s a s' h) hs

theorem run_append {s t : σ} {first : List ι} (h : sys.run s first = some t) (rest : List ι) :
    sys.run s (first ++ rest) = sys.run t rest := by
  induction first generalizing s with
  | nil =>
    cases h
    rfl
  | cons _ _ ih =>
    obtain ⟨u, hstep, hrun⟩ := Option.bind_eq_some_iff.mp h
    rw [List.cons_append, run, hstep, Option.bind_some]
    exact ih hrun

theorem Reachable.of_run {s s' : σ} (hs : sys.Reachable s) {labels : List ι}
    (h : sys.run s labels = some s') : sys.Reachable s' := by
  induction labels generalizing s with
  | nil =>
    cases h
    exact hs
  | cons _ _ ih =>
    obtain ⟨t, ht, h⟩ := Option.bind_eq_some_iff.mp h
    exact ih (.step hs trivial ht) h

theorem Reachable.exists_of_run {P : σ → Prop} {s : σ} (hs : sys.Reachable s) (labels : List ι)
    (h : ∃ s', sys.run s labels = some s' ∧ P s') : ∃ s', sys.Reachable s' ∧ P s' := by
  obtain ⟨s', hrun, hP⟩ := h
  exact ⟨s', hs.of_run hrun, hP⟩

theorem Reachable.exists₂_of_run {β : Sort*} {P : σ → β → Prop} {s : σ} (hs : sys.Reachable s)
    (labels : List ι) (h : ∃ s' x, sys.run s labels = some s' ∧ P s' x) :
    ∃ s' x, sys.Reachable s' ∧ P s' x := by
  obtain ⟨s', x, hrun, hP⟩ := h
  exact ⟨s', x, hs.of_run hrun, hP⟩

/-- The check need only be sound where the run can get. -/
theorem ReachableVia.of_runChecked_reachable {check : σ → ι → Bool}
    (hcheck : ∀ s a, sys.ReachableVia cond s → check s a = true → cond s a) {s s' : σ}
    (hs : sys.ReachableVia cond s) {labels : List ι}
    (h : sys.runChecked check s labels = some s') : sys.ReachableVia cond s' := by
  induction labels generalizing s with
  | nil =>
    cases h
    exact hs
  | cons a _ ih =>
    rw [runChecked] at h
    split_ifs at h with ha
    obtain ⟨t, ht, h⟩ := Option.bind_eq_some_iff.mp h
    exact ih (.step hs (hcheck s a hs ha) ht) h

theorem ReachableVia.of_runChecked {check : σ → ι → Bool}
    (hcheck : ∀ s a, check s a = true → cond s a) {s s' : σ} (hs : sys.ReachableVia cond s)
    {labels : List ι} (h : sys.runChecked check s labels = some s') :
    sys.ReachableVia cond s' :=
  hs.of_runChecked_reachable (fun s a _ => hcheck s a) h

theorem ReachableVia.exists_of_runChecked {check : σ → ι → Bool}
    (hcheck : ∀ s a, check s a = true → cond s a) {P : σ → Prop} {s : σ}
    (hs : sys.ReachableVia cond s) (labels : List ι)
    (h : ∃ s', sys.runChecked check s labels = some s' ∧ (sys.ReachableVia cond s' → P s')) :
    ∃ s', sys.ReachableVia cond s' ∧ P s' := by
  obtain ⟨s', hrun, hP⟩ := h
  have hreach := hs.of_runChecked hcheck hrun
  exact ⟨s', hreach, hP hreach⟩

section Observed

variable {γ : Type*} {start : γ} {observe : σ → ι → γ → γ}

theorem observed_step_eq_some {s s' : σ × γ} {a : ι}
    (h : (sys.observed start observe).step s a = some s') :
    sys.step s.1 a = some s'.1 ∧ s'.2 = observe s.1 a s.2 := by
  obtain ⟨t, ht, rfl⟩ := Option.map_eq_some_iff.mp h
  exact ⟨ht, rfl⟩

theorem ReachableVia.observed_invariant {inv : σ × γ → Prop} {cond : σ × γ → ι → Prop}
    (hinitial : ∀ s, sys.initial s → inv (s, start))
    (hstep : ∀ s g a s', inv (s, g) → cond (s, g) a → sys.step s a = some s' →
      inv (s', observe s a g))
    {s : σ × γ} (hs : (sys.observed start observe).ReachableVia cond s) : inv s := by
  refine hs.invariant ?_ ?_
  · rintro ⟨s, _⟩ ⟨h, hstart⟩
    cases hstart
    exact hinitial s h
  · rintro ⟨s, g⟩ a ⟨s', g'⟩ hinv hcond h
    obtain ⟨h, rfl⟩ := observed_step_eq_some h
    exact hstep s g a s' hinv hcond h

theorem Reachable.exists_observed {s : σ} (h : sys.Reachable s) :
    ∃ g, (sys.observed start observe).Reachable (s, g) := by
  induction h with
  | initial h => exact ⟨start, .initial ⟨h, rfl⟩⟩
  | @step s s' a _ _ hstep ih =>
    obtain ⟨g, hg⟩ := ih
    have hobserved : (sys.observed start observe).step (s, g) a = some (s', observe s a g) :=
      Option.map_eq_some_iff.mpr ⟨s', hstep, rfl⟩
    exact ⟨_, .step hg trivial hobserved⟩

end Observed

end System

end Quac.Lib.Transition
