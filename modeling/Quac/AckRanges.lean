import Quac.Lib.Intervals

/-!
Sets of packet numbers kept as an array of half-open ranges, `ArrayRangeSet` of
`range_set/array_range_set.rs`.
-/

namespace Quac.AckRanges

open Lib.Intervals List

structure Canonical (ranges : List (Nat × Nat)) : Prop where
  spaced : Spaced ranges
  nonempty : ∀ r ∈ ranges, r.1 < r.2

section Canonical

variable {r : Nat × Nat} {ranges : List (Nat × Nat)}

theorem canonical_nil : Canonical [] := by
  refine ⟨spaced_nil, ?_⟩
  intro r hr
  cases hr

theorem canonical_cons :
    Canonical (r :: ranges) ↔ r.1 < r.2 ∧ (∀ r' ∈ ranges, r.2 < r'.1) ∧ Canonical ranges := by
  constructor
  · rintro ⟨hspaced, hne⟩
    obtain ⟨-, hbefore, hrest⟩ := spaced_cons.mp hspaced
    exact ⟨hne r mem_cons_self, hbefore, hrest,
      fun r' hr' => hne r' (mem_cons_of_mem _ hr')⟩
  · rintro ⟨hr, hbefore, hspaced, hne⟩
    refine ⟨spaced_cons.mpr ⟨Nat.le_of_lt hr, hbefore, hspaced⟩, ?_⟩
    intro r' hr'
    rcases mem_cons.mp hr' with rfl | hr'
    · exact hr
    · exact hne r' hr'

end Canonical

/-- The range at the current index has grown: merge the follow-up ranges it reaches. -/
def mergeFollowing (start stop : Nat) : List (Nat × Nat) → List (Nat × Nat)
  | [] => [(start, stop)]
  | (nextStart, nextStop) :: rest =>
    if nextStart ≤ stop then mergeFollowing start (nextStop.max stop) rest
    else (start, stop) :: (nextStart, nextStop) :: rest

def insertRange (start stop : Nat) : List (Nat × Nat) → List (Nat × Nat)
  | [] => [(start, stop)]
  | (rangeStart, rangeStop) :: rest =>
    -- The new range is fully before this one.
    if stop < rangeStart then (start, stop) :: (rangeStart, rangeStop) :: rest
    else
      let rangeStart := if start < rangeStart then start else rangeStart
      if stop ≤ rangeStop then (rangeStart, rangeStop) :: rest
      else if start ≤ rangeStop then mergeFollowing rangeStart stop rest
      else (rangeStart, rangeStop) :: insertRange start stop rest

section Insert

variable {start stop : Nat} {ranges : List (Nat × Nat)}

theorem canonical_mergeFollowing (hlt : start < stop) (h : Canonical ranges)
    (hafter : ∀ r ∈ ranges, start < r.1) : Canonical (mergeFollowing start stop ranges) := by
  induction ranges generalizing stop with
  | nil =>
    refine canonical_cons.mpr ⟨hlt, ?_, canonical_nil⟩
    intro r hr
    cases hr
  | cons _ _ ih =>
    unfold mergeFollowing
    split_ifs with htouch
    · have hrest := canonical_cons.mp h
      exact ih (Nat.lt_of_lt_of_le hlt (Nat.le_max_right _ _)) hrest.2.2
        fun r hr => hafter r (mem_cons_of_mem _ hr)
    · refine canonical_cons.mpr ⟨hlt, ?_, h⟩
      obtain ⟨_, hbefore, -⟩ := canonical_cons.mp h
      intro r hr
      rcases mem_cons.mp hr with rfl | hr
      · exact Nat.lt_of_not_le htouch
      · have hgap := hbefore r hr
        omega

theorem le_of_mem_mergeFollowing {r : Nat × Nat} (h : r ∈ mergeFollowing start stop ranges)
    (hafter : ∀ r ∈ ranges, start < r.1) : start ≤ r.1 := by
  induction ranges generalizing stop with
  | nil =>
    rw [mergeFollowing, mem_singleton] at h
    subst h
    exact Nat.le_refl _
  | cons _ _ ih =>
    unfold mergeFollowing at h
    split_ifs at h
    · exact ih h fun r hr => hafter r (mem_cons_of_mem _ hr)
    · rcases mem_cons.mp h with rfl | h
      · exact Nat.le_refl _
      · exact Nat.le_of_lt (hafter r h)

theorem lt_of_mem_insertRange {r : Nat × Nat} {low : Nat}
    (h : r ∈ insertRange start stop ranges) (hstart : low < start) (hcanonical : Canonical ranges)
    (hranges : ∀ r ∈ ranges, low < r.1) : low < r.1 := by
  induction ranges with
  | nil =>
    rw [insertRange, mem_singleton] at h
    rw [h]
    exact hstart
  | cons range _ ih =>
    obtain ⟨_, hbefore, hrest⟩ := canonical_cons.mp hcanonical
    have hlow := hranges range mem_cons_self
    have hafter := fun r hr => hranges r (mem_cons_of_mem range hr)
    have hmin : low < if start < range.1 then start else range.1 := by
      split_ifs
      · exact hstart
      · exact hlow
    unfold insertRange at h
    generalize hbegin : (if start < range.1 then start else range.1) = begin at h hmin
    split_ifs at h with hfar hwithin htouch
    · rcases mem_cons.mp h with rfl | h
      · exact hstart
      · exact hranges r h
    · rcases mem_cons.mp h with rfl | h
      · exact hmin
      · exact hafter r h
    · refine Nat.lt_of_lt_of_le hmin (le_of_mem_mergeFollowing h fun r' hr' => ?_)
      have hgap := hbefore r' hr'
      split_ifs at hbegin <;> omega
    · rcases mem_cons.mp h with rfl | h
      · exact hmin
      · exact ih h hrest hafter

theorem canonical_insertRange (hlt : start < stop) (h : Canonical ranges) :
    Canonical (insertRange start stop ranges) := by
  induction ranges with
  | nil =>
    refine canonical_cons.mpr ⟨hlt, ?_, canonical_nil⟩
    intro r hr
    cases hr
  | cons range _ ih =>
    obtain ⟨_, hbefore, hrest⟩ := canonical_cons.mp h
    unfold insertRange
    generalize hbegin : (if start < range.1 then start else range.1) = begin
    have hbegins : begin ≤ start ∧ begin ≤ range.1 ∧ (begin = start ∨ begin = range.1) := by
      split_ifs at hbegin <;> omega
    split_ifs with hfar hwithin htouch
    · refine canonical_cons.mpr ⟨hlt, ?_, h⟩
      intro r hr
      rcases mem_cons.mp hr with rfl | hr
      · exact hfar
      · have hgap := hbefore r hr
        omega
    · exact canonical_cons.mpr ⟨by omega, hbefore, hrest⟩
    · refine canonical_mergeFollowing (by omega) hrest fun r hr => ?_
      have hgap := hbefore r hr
      omega
    · refine canonical_cons.mpr ⟨by omega, ?_, ih hrest⟩
      intro r hr
      exact lt_of_mem_insertRange hr (by omega) hrest hbefore

end Insert

/-- `ArrayRangeSet`, with the shape that its operations keep. -/
structure ArrayRangeSet where
  ranges : List (Nat × Nat)
  canonical : Canonical ranges

namespace ArrayRangeSet

def new : ArrayRangeSet :=
  ⟨[], canonical_nil⟩

def insert (s : ArrayRangeSet) (start stop : Nat) : ArrayRangeSet :=
  if h : start < stop then ⟨insertRange start stop s.ranges, canonical_insertRange h s.canonical⟩
  else s

def insertOne (s : ArrayRangeSet) (x : Nat) : ArrayRangeSet :=
  s.insert x (x + 1)

end ArrayRangeSet

end Quac.AckRanges
