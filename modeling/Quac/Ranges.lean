import Mathlib.Algebra.Ring.Nat
import Mathlib.Data.List.Basic

/-!
Sets of numbers kept as disjoint half-open ranges, `RangeSet` of
`range_set/btree_range_set.rs`.
-/

namespace Quac.Ranges

open List

/-- The entries `start ↦ end` of the underlying map, in ascending order. -/
structure RangeSet where
  ranges : List (Nat × Nat)

namespace RangeSet

def empty : RangeSet :=
  ⟨[]⟩

def isEmpty (s : RangeSet) : Bool :=
  s.ranges.isEmpty

def min (s : RangeSet) : Option Nat :=
  s.ranges.head?.map Prod.fst

def total (s : RangeSet) : Nat :=
  (s.ranges.map fun r => r.2 - r.1).sum

def pred (s : RangeSet) (x : Nat) : Option (Nat × Nat) :=
  (s.ranges.filter fun r => r.1 ≤ x).getLast?

def succ (s : RangeSet) (x : Nat) : Option (Nat × Nat) :=
  s.ranges.find? fun r => x < r.1

def removeKey (s : RangeSet) (start : Nat) : RangeSet :=
  ⟨s.ranges.filter fun r => r.1 ≠ start⟩

def insertKey (s : RangeSet) (start stop : Nat) : RangeSet :=
  ⟨s.ranges.filter (fun r => r.1 < start) ++ (start, stop) :: s.ranges.filter fun r => start < r.1⟩

/-- Swallow the successors that `start..stop` touches; `fuel` bounds their number. -/
def absorb (fuel : Nat) (s : RangeSet) (start stop : Nat) : RangeSet :=
  match fuel with
  | 0 => s.insertKey start stop
  | fuel + 1 =>
    match s.succ start with
    | some (nextStart, nextStop) =>
      if stop < nextStart then s.insertKey start stop
      else absorb fuel (s.removeKey nextStart) start (max nextStop stop)
    | none => s.insertKey start stop

def insert (s : RangeSet) (start stop : Nat) : RangeSet :=
  if stop ≤ start then s
  else
    match s.pred start with
    | some (prevStart, prevStop) =>
      if stop ≤ prevStop then s
      else if start ≤ prevStop then
        absorb s.ranges.length (s.removeKey prevStart) prevStart stop
      else absorb s.ranges.length s start stop
    | none => absorb s.ranges.length s start stop

def popMin (s : RangeSet) : Option ((Nat × Nat) × RangeSet) :=
  match s.ranges with
  | [] => none
  | r :: rest => some (r, ⟨rest⟩)

/-- The iterator of `replace`: the set without the ranges visited so far and the
union of the new range with them. -/
structure Replace where
  set : RangeSet
  start : Nat
  stop : Nat

def Replace.next (r : Replace) : Option (Nat × Nat) × Replace :=
  match r.set.succ r.start with
  | none => (none, r)
  | some (nextStart, nextStop) =>
    if r.stop < nextStart then (none, r)
    else
      let replacedStop := r.stop.min nextStop
      let r' : Replace := ⟨r.set.removeKey nextStart, r.start, r.stop.max nextStop⟩
      if nextStart = replacedStop then (none, r') else (some (nextStart, replacedStop), r')

/-- Iterate until `next` gives `none`; `fuel` bounds the number of overlaps. -/
def Replace.collect (fuel : Nat) (r : Replace) : List (Nat × Nat) × Replace :=
  match fuel with
  | 0 => ([], r)
  | fuel + 1 =>
    match r.next with
    | (none, r') => ([], r')
    | (some overlap, r') =>
      let (overlaps, r'') := r'.collect fuel
      (overlap :: overlaps, r'')

/-- Add a range; the result lists its overlaps with the old ranges. -/
def replace (s : RangeSet) (start stop : Nat) : List (Nat × Nat) × RangeSet :=
  let (overlap, r) : Option (Nat × Nat) × Replace :=
    match (s.pred start).filter fun r => start ≤ r.2 with
    | some (prevStart, prevStop) =>
      let replacedStop := stop.min prevStop
      (if start ≠ replacedStop then some (start, replacedStop) else none,
        ⟨s.removeKey prevStart, start.min prevStart, stop.max prevStop⟩)
    | none => (none, ⟨s, start, stop⟩)
  let (overlaps, r) := r.collect (s.ranges.length + 1)
  -- Dropping the iterator drains what is left of it and inserts the union.
  let (_, r) := r.collect (s.ranges.length + 1)
  (overlap.toList ++ overlaps, r.set.insertKey r.start r.stop)

def Below (n : Nat) (s : RangeSet) : Prop :=
  ∀ r ∈ s.ranges, r.1 ≤ r.2 ∧ r.2 ≤ n

variable {start stop : Nat}

section Below

variable {n : Nat} {s : RangeSet}

theorem below_empty : Below n empty := by
  intro r hr
  cases hr

theorem Below.mono {m : Nat} (h : Below n s) (hle : n ≤ m) : Below m s :=
  fun r hr => ⟨(h r hr).1, le_trans (h r hr).2 hle⟩

theorem Below.removeKey (h : Below n s) (start : Nat) : Below n (s.removeKey start) :=
  fun r hr => h r (mem_filter.mp hr).1

theorem Below.insertKey (h : Below n s) (hle : start ≤ stop) (hstop : stop ≤ n) :
    Below n (s.insertKey start stop) := by
  intro r hr
  rcases mem_append.mp hr with hr | hr
  · exact h r (mem_filter.mp hr).1
  · rcases mem_cons.mp hr with rfl | hr
    · exact ⟨hle, hstop⟩
    · exact h r (mem_filter.mp hr).1

theorem Below.absorb (h : Below n s) (fuel : Nat) (hle : start ≤ stop)
    (hstop : stop ≤ n) : Below n (s.absorb fuel start stop) := by
  induction fuel generalizing s stop with
  | zero => exact h.insertKey hle hstop
  | succ _ ih =>
    unfold RangeSet.absorb
    split
    · rename_i nextStart nextStop hnext
      split_ifs
      · exact h.insertKey hle hstop
      · have hmem := h (nextStart, nextStop) (mem_of_find?_eq_some hnext)
        exact ih (h.removeKey nextStart) (le_trans hle (Nat.le_max_right _ _))
          (Nat.max_le.mpr ⟨hmem.2, hstop⟩)
    · exact h.insertKey hle hstop

theorem Below.insert (h : Below n s) (hstop : stop ≤ n) :
    Below n (s.insert start stop) := by
  unfold RangeSet.insert
  split_ifs with hempty
  · exact h
  · have hle : start ≤ stop := by omega
    split
    · rename_i prevStart prevStop hprev
      have hmem := h (prevStart, prevStop)
        (mem_filter.mp (mem_of_getLast? hprev)).1
      split_ifs with hwithin htouches
      · exact h
      · exact (h.removeKey _).absorb _ (le_trans hmem.1 (by omega)) hstop
      · exact h.absorb _ hle hstop
    · exact h.absorb _ hle hstop

theorem Below.popMin (h : Below n s) {r : Nat × Nat} {rest : RangeSet}
    (hpop : s.popMin = some (r, rest)) : r.1 ≤ r.2 ∧ r.2 ≤ n ∧ Below n rest := by
  unfold RangeSet.popMin at hpop
  split at hpop
  · cases hpop
  · rename_i r' rest' hranges
    cases hpop
    obtain ⟨hle, hstop⟩ := h r (hranges ▸ mem_cons_self)
    exact ⟨hle, hstop, fun x hx => h x (hranges ▸ mem_cons_of_mem _ hx)⟩

theorem min_eq_of_popMin {r : Nat × Nat} {rest : RangeSet} (hpop : s.popMin = some (r, rest)) :
    s.min = some r.1 := by
  unfold RangeSet.popMin at hpop
  split at hpop
  · cases hpop
  · rename_i r' rest' hranges
    cases hpop
    simp [RangeSet.min, hranges]

end Below

/-- What it takes to go through the ranges: a step for each and one for each number in it. -/
def weight (s : RangeSet) : Nat :=
  (s.ranges.map fun r => r.2 - r.1 + 1).sum

section Weight

variable {s : RangeSet}

theorem sum_filter_le (f : Nat × Nat → Nat) (p : Nat × Nat → Bool) (ranges : List (Nat × Nat)) :
    ((ranges.filter p).map f).sum ≤ (ranges.map f).sum := by
  induction ranges with
  | nil => exact le_rfl
  | cons =>
    rw [filter_cons]
    split_ifs <;> simp only [map_cons, sum_cons] <;> omega

theorem weight_insertKey_le (start stop : Nat) :
    (s.insertKey start stop).weight ≤ s.weight + (stop - start + 1) := by
  -- The new range stands between those before it and those after it.
  have hparts : ∀ ranges : List (Nat × Nat),
      ((ranges.filter fun r => r.1 < start).map fun r => r.2 - r.1 + 1).sum +
        ((ranges.filter fun r => start < r.1).map fun r => r.2 - r.1 + 1).sum ≤
      (ranges.map fun r => r.2 - r.1 + 1).sum := by
    intro ranges
    induction ranges with
    | nil => exact le_rfl
    | cons =>
      simp only [filter_cons, map_cons, sum_cons]
      split_ifs with hlt hgt hgt
      · simp only [decide_eq_true_eq] at hlt hgt
        omega
      iterate 2
        simp only [map_cons, sum_cons]
        omega
      omega
  have hsum := hparts s.ranges
  simp only [weight, insertKey, map_append, map_cons, sum_append, sum_cons]
  omega

theorem weight_removeKey_le (h : (start, stop) ∈ s.ranges) :
    (s.removeKey start).weight + (stop - start + 1) ≤ s.weight := by
  have hsum : ∀ ranges : List (Nat × Nat), (start, stop) ∈ ranges →
      ((ranges.filter fun r => r.1 ≠ start).map fun r => r.2 - r.1 + 1).sum + (stop - start + 1) ≤
        (ranges.map fun r => r.2 - r.1 + 1).sum := by
    intro ranges hmem
    induction ranges with
    | nil => cases hmem
    | cons r rest ih =>
      simp only [filter_cons, map_cons, sum_cons]
      rcases mem_cons.mp hmem with rfl | hmem
      · have hrest := sum_filter_le (fun r => r.2 - r.1 + 1) (fun r => r.1 ≠ start) rest
        rw [if_neg (by simp)]
        omega
      · have hrest := ih hmem
        split_ifs
        · simp only [map_cons, sum_cons]
          omega
        · omega
  exact hsum s.ranges h

theorem weight_absorb_le (fuel : Nat) (hle : start ≤ stop) :
    (s.absorb fuel start stop).weight ≤ s.weight + (stop - start + 1) := by
  induction fuel generalizing s stop with
  | zero => exact weight_insertKey_le start stop
  | succ _ ih =>
    unfold absorb
    split
    · rename_i nextStart nextStop hnext
      split_ifs
      · exact weight_insertKey_le start stop
      · have hremoved := weight_removeKey_le (mem_of_find?_eq_some hnext)
        have hrest := ih (s := s.removeKey nextStart)
          (le_trans hle (Nat.le_max_right nextStop stop))
        omega
    · exact weight_insertKey_le start stop

theorem weight_insert_le :
    (s.insert start stop).weight ≤ s.weight + (stop - start + 1) := by
  unfold RangeSet.insert
  split_ifs with hempty
  · exact Nat.le_add_right _ _
  · have hle : start ≤ stop := by omega
    split
    · rename_i prevStart prevStop hprev
      obtain ⟨hmem, hstart⟩ := mem_filter.mp (mem_of_getLast? hprev)
      have hstart : prevStart ≤ start := of_decide_eq_true hstart
      split_ifs with hwithin htouches
      · exact Nat.le_add_right _ _
      · have hremoved := weight_removeKey_le hmem
        have habsorbed := weight_absorb_le (s := s.removeKey prevStart) s.ranges.length
          (le_trans hstart hle)
        omega
      · exact weight_absorb_le _ hle
    · exact weight_absorb_le _ hle

theorem weight_popMin {rest : RangeSet} (hpop : s.popMin = some ((start, stop), rest)) :
    rest.weight + (stop - start + 1) = s.weight := by
  unfold RangeSet.popMin at hpop
  split at hpop
  · cases hpop
  · rename_i r rest' hranges
    cases hpop
    simp only [weight, hranges, map_cons, sum_cons]
    omega

end Weight

end RangeSet

end Quac.Ranges
