import Mathlib.Algebra.BigOperators.Group.Finset.Piecewise
import Mathlib.Algebra.Order.BigOperators.Group.Finset
import Mathlib.Algebra.Ring.Nat

/-!
Tallies: a count for each key, almost all of them zero, and their total.
-/

namespace Quac.Lib.Tallies

open Function Finset

structure Tally (κ : Type*) where
  count : κ → Nat
  /-- The keys that may have a count. -/
  keys : Finset κ
  eq_zero : ∀ k, k ∉ keys → count k = 0

namespace Tally

variable {κ : Type*}

def empty : Tally κ :=
  ⟨fun _ => 0, ∅, fun _ _ => rfl⟩

def total (t : Tally κ) : Nat :=
  ∑ k ∈ t.keys, t.count k

theorem total_eq_sum (t : Tally κ) {keys : Finset κ} (h : t.keys ⊆ keys) :
    t.total = ∑ k ∈ keys, t.count k :=
  sum_subset h fun k _ hk => t.eq_zero k hk

variable [DecidableEq κ]

def set (t : Tally κ) (k : κ) (n : Nat) : Tally κ where
  count := Function.update t.count k n
  keys := insert k t.keys
  eq_zero := by
    intro j hj
    rw [Finset.mem_insert, not_or] at hj
    rw [Function.update_of_ne hj.1]
    exact t.eq_zero j hj.2

@[simp] theorem set_count_self (t : Tally κ) (k : κ) (n : Nat) : (t.set k n).count k = n :=
  update_self _ _ _

theorem set_count_of_ne (t : Tally κ) {j k : κ} (h : j ≠ k) (n : Nat) :
    (t.set k n).count j = t.count j :=
  update_of_ne h _ _

@[simp] theorem set_set (t : Tally κ) (k : κ) (m n : Nat) : (t.set k m).set k n = t.set k n := by
  simp only [set, update_idem, insert_idem]

theorem total_set (t : Tally κ) (k : κ) (n : Nat) :
    (t.set k n).total + t.count k = t.total + n := by
  have hmem : k ∈ insert k t.keys := mem_insert_self k t.keys
  have hset : (t.set k n).total = n + ∑ j ∈ (insert k t.keys).erase k, t.count j := by
    change ∑ j ∈ insert k t.keys, update t.count k n j = _
    rw [sum_update_of_mem hmem, sdiff_singleton_eq_erase]
  have hsplit : t.count k + ∑ j ∈ (insert k t.keys).erase k, t.count j = t.total := by
    rw [add_sum_erase _ _ hmem, ← t.total_eq_sum (subset_insert k t.keys)]
  omega

theorem total_le_total {t u : Tally κ} (h : ∀ k, t.count k ≤ u.count k) : t.total ≤ u.total := by
  have ht : t.keys ⊆ t.keys ∪ u.keys := subset_union_left
  have hu : u.keys ⊆ t.keys ∪ u.keys := subset_union_right
  rw [t.total_eq_sum ht, u.total_eq_sum hu]
  exact sum_le_sum fun k _ => h k

/-- What some keys have in `u` beyond `t` is part of the difference of the totals. -/
theorem sum_add_total_le {t u : Tally κ} (h : ∀ k, t.count k ≤ u.count k) (keys : Finset κ) :
    ∑ k ∈ keys, (u.count k - t.count k) + t.total ≤ u.total := by
  have hkeys : keys ⊆ keys ∪ (t.keys ∪ u.keys) := subset_union_left
  have ht : t.keys ⊆ keys ∪ (t.keys ∪ u.keys) :=
    subset_union_left.trans subset_union_right
  have hu : u.keys ⊆ keys ∪ (t.keys ∪ u.keys) :=
    subset_union_right.trans subset_union_right
  rw [t.total_eq_sum ht, u.total_eq_sum hu]
  calc ∑ k ∈ keys, (u.count k - t.count k) + ∑ k ∈ keys ∪ (t.keys ∪ u.keys), t.count k
    _ ≤ ∑ k ∈ keys ∪ (t.keys ∪ u.keys), (u.count k - t.count k) +
          ∑ k ∈ keys ∪ (t.keys ∪ u.keys), t.count k :=
        Nat.add_le_add_right (sum_le_sum_of_subset hkeys) _
    _ = ∑ k ∈ keys ∪ (t.keys ∪ u.keys), u.count k := by
        rw [← sum_add_distrib]
        exact sum_congr rfl fun k _ => Nat.sub_add_cancel (h k)

end Tally

end Quac.Lib.Tallies
