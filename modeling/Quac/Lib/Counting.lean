import Mathlib.Data.Nat.Count
import Mathlib.Tactic.Common

/-!
How many of the first numbers have a property, while single numbers lose it and the bound
goes up.
-/

namespace Quac.Lib.Counting

variable {p q : Nat → Prop} [DecidablePred p] [DecidablePred q] {n k i : Nat}

theorem count_congr_of_lt (h : ∀ j < n, p j ↔ q j) : Nat.count p n = Nat.count q n := by
  rw [Nat.count_eq_card_filter_range, Nat.count_eq_card_filter_range]
  congr 1
  exact Finset.filter_congr fun j hj => h j (Finset.mem_range.mp hj)

theorem count_remove (hi : i < n) (hp : p i) (hq : ∀ j < n, q j ↔ p j ∧ j ≠ i) :
    Nat.count q n + 1 = Nat.count p n := by
  rw [Nat.count_eq_card_filter_range, Nat.count_eq_card_filter_range]
  have herase : (Finset.range n).filter q = ((Finset.range n).filter p).erase i := by
    ext j
    rw [Finset.mem_erase, Finset.mem_filter, Finset.mem_filter, Finset.mem_range]
    constructor
    · rintro ⟨hj, hqj⟩
      obtain ⟨hpj, hne⟩ := (hq j hj).mp hqj
      exact ⟨hne, hj, hpj⟩
    · rintro ⟨hne, hj, hpj⟩
      exact ⟨hj, (hq j hj).mpr ⟨hpj, hne⟩⟩
  have hmem : i ∈ (Finset.range n).filter p :=
    Finset.mem_filter.mpr ⟨Finset.mem_range.mpr hi, hp⟩
  rw [herase]
  exact Finset.card_erase_add_one hmem

theorem count_extend (h : ∀ j, n ≤ j → j < n + k → p j) :
    Nat.count p (n + k) = Nat.count p n + k := by
  rw [Nat.count_add]
  congr 1
  rw [Nat.count_iff_forall]
  exact fun j hj => h (n + j) (Nat.le_add_right _ _) (Nat.add_lt_add_left hj n)

end Quac.Lib.Counting
