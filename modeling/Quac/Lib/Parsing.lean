import Mathlib.Data.List.Basic
import Quac.Lib.Faults

/-!
Parsers over lists of symbols.  A parser returns its value with the input that follows, so
that parsers in sequence are a state monad over failure.  What an encoder wrote is read back
whatever follows it, and what a parser leaves is always the end of what it was given.
-/

namespace Quac.Lib.Parsing

open Lib.Faults

variable {σ ε ε' : Type} {α β : Type}

/-- A parser of symbols `σ` that may fail with `ε`. -/
abbrev Parser (σ ε α : Type) : Type :=
  StateT (List σ) (Except ε) α

/-- The parser takes `input` for `a` and leaves what follows it alone. -/
def Reads (p : Parser σ ε α) (input : List σ) (a : α) : Prop :=
  ∀ rest, p (input ++ rest) = .ok (a, rest)

/-- The parser takes its value from the front of the input. -/
def Leaves (p : Parser σ ε α) : Prop :=
  ∀ ⦃input a rest⦄, p input = .ok (a, rest) → rest <:+ input

def Advances (p : Parser σ ε α) : Prop :=
  ∀ ⦃input a rest⦄, p input = .ok (a, rest) → rest <:+ input ∧ rest.length < input.length

def mapError (f : ε → ε') (p : Parser σ ε α) : Parser σ ε' α := fun input =>
  match p input with
  | .ok r => .ok r
  | .error e => .error (f e)

variable {f : α → Parser σ ε β} {input : List σ}

section Results

theorem bind_apply (p : Parser σ ε α) (f : α → Parser σ ε β) (input : List σ) :
    (p >>= f) input = p input >>= fun r => f r.1 r.2 :=
  rfl

variable {p : Parser σ ε α}

theorem bind_ok {rest : List σ} {a : α}
    (h : p input = .ok (a, rest)) : (p >>= f) input = f a rest := by
  rw [bind_apply, h]
  rfl

theorem bind_eq_ok_iff {rest : List σ} {b : β} :
    (p >>= f) input = .ok (b, rest) ↔
      ∃ a mid, p input = .ok (a, mid) ∧ f a mid = .ok (b, rest) := by
  rw [bind_apply]
  rcases p input with e | ⟨a, mid⟩
  · constructor
    · intro h
      cases h
    · rintro ⟨a, mid, h, -⟩
      cases h
  · constructor
    · exact fun h => ⟨a, mid, rfl, h⟩
    · rintro ⟨a', mid', h, h'⟩
      cases h
      exact h'

theorem mapError_eq_ok_iff {f : ε → ε'} {r : α × List σ} :
    mapError f p input = .ok r ↔ p input = .ok r := by
  unfold mapError
  rcases p input with e | _
  · simp
  · simp

end Results

section Reads

variable {p : Parser σ ε α} {input input' : List σ} {a : α} {b : β}

theorem reads_pure (a : α) : Reads (pure a : Parser σ ε α) [] a :=
  fun _ => rfl

/-- Parsers in sequence read encodings in sequence. -/
theorem Reads.bind (h : Reads p input a) (h' : Reads (f a) input' b) :
    Reads (p >>= f) (input ++ input') b := by
  intro rest
  rw [List.append_assoc, bind_ok (h _)]
  exact h' rest

theorem Reads.last (h : Reads p input a)
    (h' : ∀ rest, f a rest = .ok (b, rest)) : Reads (p >>= f) input b := by
  intro rest
  rw [bind_ok (h _)]
  exact h' rest

theorem Reads.mapError (h : Reads p input a) (f : ε → ε') : Reads (mapError f p) input a :=
  fun rest => mapError_eq_ok_iff.mpr (h rest)

end Reads

section Yields

def Yields (q : α → Prop) (p : Parser σ ε α) : Prop :=
  ∀ ⦃input a rest⦄, p input = .ok (a, rest) → q a

variable {q : α → Prop}

theorem yields_pure {a : α} (h : q a) : Yields q (pure a : Parser σ ε α) := by
  intro input a' rest hok
  cases hok
  exact h

theorem yields_throw {e : ε} : Yields q (throw e : Parser σ ε α) :=
  fun _ _ _ hok => by cases hok

theorem Yields.bind {p : Parser σ ε β} {f : β → Parser σ ε α} (h : ∀ b, Yields q (f b)) :
    Yields q (p >>= f) := by
  intro input a rest hok
  obtain ⟨b, _, -, hf⟩ := bind_eq_ok_iff.mp hok
  exact h b hf

end Yields

section Safe

variable {p : Parser σ ε α} {bad : ε → Prop}

/-- On this input the parser does not fail with a bad error, and what it leaves is the end of
the input. -/
def SafeAt (bad : ε → Prop) (p : Parser σ ε α) (input : List σ) : Prop :=
  Ensures bad (fun r => r.2 <:+ input) (p input)

def Safe (bad : ε → Prop) (p : Parser σ ε α) : Prop :=
  ∀ input, SafeAt bad p input

theorem safe_pure (a : α) : Safe bad (pure a : Parser σ ε α) :=
  fun _ => List.suffix_refl _

theorem safe_throw {e : ε} (h : ¬ bad e) : Safe bad (throw e : Parser σ ε α) :=
  fun _ => h

theorem SafeAt.bind (h : SafeAt bad p input)
    (h' : ∀ a rest, p input = .ok (a, rest) → SafeAt bad (f a) rest) :
    SafeAt bad (p >>= f) input := by
  unfold SafeAt at h ⊢
  rw [bind_apply]
  cases hp : p input with
  | error =>
    rw [hp] at h
    exact h
  | ok r =>
    rw [hp] at h
    exact (h' r.1 r.2 hp).mono fun _ hsuffix => hsuffix.trans h

theorem Safe.bind (h : Safe bad p) (h' : ∀ a, Safe bad (f a)) :
    Safe bad (p >>= f) :=
  fun input => (h input).bind fun a rest _ => h' a rest

theorem Safe.leaves (h : Safe bad p) : Leaves p := by
  intro input a rest hok
  have hsafe := h input
  unfold SafeAt at hsafe
  rw [hok] at hsafe
  exact hsafe

theorem Leaves.safe {bad : ε' → Prop} (h : Leaves p) {f : ε → ε'} (hf : ∀ e, ¬ bad (f e)) :
    Safe bad (mapError f p) := by
  intro input
  unfold SafeAt mapError
  cases hp : p input with
  | error e => exact hf e
  | ok => exact h hp

theorem Advances.leaves (h : Advances p) : Leaves p :=
  fun _ _ _ hok => (h hok).1

theorem Advances.bind (h : Advances p) (h' : ∀ a, Leaves (f a)) :
    Advances (p >>= f) := by
  intro input b rest hok
  obtain ⟨a, _, hp, hf⟩ := bind_eq_ok_iff.mp hok
  have hmid := h hp
  have hrest := h' a hf
  exact ⟨hrest.trans hmid.1, Nat.lt_of_le_of_lt hrest.length_le hmid.2⟩

theorem Advances.mapError (h : Advances p) (f : ε → ε') : Advances (mapError f p) :=
  fun _ _ _ hok => h (mapError_eq_ok_iff.mp hok)

end Safe

end Quac.Lib.Parsing
