import Mathlib.Data.List.Basic

/-!
Finite sets of numbers written as lists of half-open intervals.
-/

namespace Quac.Lib.Intervals

def Within (ranges : List (Nat × Nat)) (n : Nat) : Prop :=
  ∃ r ∈ ranges, r.1 ≤ n ∧ n < r.2

variable {r : Nat × Nat} {ranges ranges' : List (Nat × Nat)} {n : Nat}

@[simp] theorem not_within_nil : ¬ Within [] n := by
  rintro ⟨r, hr, -⟩
  cases hr

theorem within_cons : Within (r :: ranges) n ↔ (r.1 ≤ n ∧ n < r.2) ∨ Within ranges n := by
  simp [Within]

structure Spaced (ranges : List (Nat × Nat)) : Prop where
  ordered : ∀ r ∈ ranges, r.1 ≤ r.2
  apart : ranges.Pairwise fun r r' => r.2 < r'.1

theorem spaced_nil : Spaced [] := by
  constructor
  · intro r hr
    cases hr
  · exact List.Pairwise.nil

theorem spaced_cons :
    Spaced (r :: ranges) ↔ r.1 ≤ r.2 ∧ (∀ r' ∈ ranges, r.2 < r'.1) ∧ Spaced ranges := by
  constructor
  · rintro ⟨hordered, hapart⟩
    rw [List.pairwise_cons] at hapart
    exact ⟨hordered r List.mem_cons_self, hapart.1,
      fun r' hr' => hordered r' (List.mem_cons_of_mem _ hr'), hapart.2⟩
  · rintro ⟨hr, hbefore, hordered, hapart⟩
    refine ⟨?_, List.pairwise_cons.mpr ⟨hbefore, hapart⟩⟩
    intro r' hr'
    rcases List.mem_cons.mp hr' with rfl | hr'
    · exact hr
    · exact hordered r' hr'

end Quac.Lib.Intervals
