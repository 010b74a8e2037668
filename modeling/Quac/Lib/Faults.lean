import Mathlib.Tactic.TypeStar

/-!
Computations that may fault, and what they ensure: the faults they avoid and what
holds of the result.
-/

namespace Quac.Lib.Faults

universe u

variable {ε : Type*} {α β : Type u} {bad : ε → Prop} {P Q : α → Prop} {R : β → Prop}

/-- `x` does not end in a fault of `bad`, and what it returns meets `P`. -/
def Ensures (bad : ε → Prop) (P : α → Prop) : Except ε α → Prop
  | .ok a => P a
  | .error e => ¬ bad e

@[simp] theorem ensures_ok {a : α} : Ensures bad P (.ok a) ↔ P a :=
  Iff.rfl

@[simp] theorem ensures_pure {a : α} : Ensures bad P (pure a) ↔ P a :=
  Iff.rfl

theorem Ensures.ok {a : α} (h : P a) : Ensures bad P (.ok a) :=
  h

variable {x : Except ε α}

theorem bind_eq_ok {f : α → Except ε β} {b : β} (h : x >>= f = .ok b) :
    ∃ a, x = .ok a ∧ f a = .ok b := by
  cases x with
  | error => cases h
  | ok a => exact ⟨a, rfl, h⟩

theorem Ensures.mono (h : Ensures bad P x) (hPQ : ∀ a, P a → Q a) :
    Ensures bad Q x := by
  cases x with
  | ok a => exact hPQ a h
  | error => exact h

theorem Ensures.bind {f : α → Except ε β} (h : Ensures bad P x)
    (hf : ∀ a, P a → Ensures bad R (f a)) : Ensures bad R (x >>= f) := by
  cases x with
  | ok a => exact hf a h
  | error => exact h

theorem Ensures.and {bad' : ε → Prop} (h : Ensures bad P x)
    (h' : Ensures bad' Q x) : Ensures bad (fun a => P a ∧ Q a) x := by
  cases x with
  | ok => exact ⟨h, h'⟩
  | error => exact h

theorem ensures_true (x : Except ε α) : Ensures (fun _ => False) (fun _ => True) x := by
  cases x with
  | ok => exact trivial
  | error => exact not_false

/-- The rule for loops: the invariant speaks of what is left to do. -/
theorem Ensures.foldlM {γ : Type*} {f : α → γ → Except ε α} (inv : List γ → α → Prop)
    (hf : ∀ c rest a, inv (c :: rest) a → Ensures bad (inv rest) (f a c)) {l : List γ} {a : α}
    (h : inv l a) : Ensures bad (inv []) (l.foldlM f a) := by
  induction l generalizing a with
  | nil => exact h
  | cons c rest ih => exact Ensures.bind (hf c rest a h) fun _ hb => ih hb

theorem Ensures.exists_ok (h : Ensures (fun _ => True) P x) :
    ∃ a, x = .ok a ∧ P a := by
  cases x with
  | ok a => exact ⟨a, rfl, h⟩
  | error => exact absurd trivial h

theorem Ensures.ne_error (h : Ensures bad P x) {e : ε} (he : bad e) :
    x ≠ .error e := by
  rintro rfl
  exact h he

end Quac.Lib.Faults
