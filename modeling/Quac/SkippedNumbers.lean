import Quac.Lib.Transition
import Quac.PacketSpaces

/-!
The packet numbers that a connection leaves out of the Data space, over all the
packets it sends there.
-/

namespace Quac.SkippedNumbers

open Lib.Transition PacketSpaces PacketNumberFilter

/-- The filter and the space it allocates from, with what became of the numbers. -/
structure Allocator where
  filter : PacketNumberFilter
  space : PacketSpace
  allocated : List Nat
  /-- Every number chosen for skipping, the one to come included. -/
  chosen : List Nat
  skipped : List Nat

namespace Allocator

/-- The number that is next is left out. -/
def skips (s : Allocator) : Bool :=
  s.space.nextPacketNumber = s.filter.nextSkippedPacketNumber

/-- One allocation, with a number that the generator can draw. -/
def allocate (s : Allocator) (random : Nat) : Option Allocator :=
  if 2 ^ s.filter.exponent ≤ random ∧ random < 2 ^ (s.filter.exponent + 1) then
    match s.filter.allocate random s.space with
    | .error _ => none
    | .ok (n, filter, space) =>
      some { filter, space, allocated := n :: s.allocated
             chosen := if s.skips then random :: s.chosen else s.chosen
             skipped := if s.skips then s.space.nextPacketNumber :: s.skipped else s.skipped }
  else none

structure Defended (s : Allocator) : Prop where
  increasing : s.allocated.Pairwise (· > ·)
  peeked : ∀ random n filter space, s.filter.allocate random s.space = .ok (n, filter, space) →
    n = s.filter.peek s.space ∧ ∀ m ∈ s.allocated, m < n
  withheld : ∀ n ∈ s.chosen, n ∉ s.allocated
  armed : s.space.nextPacketNumber ≤ s.filter.nextSkippedPacketNumber
  rejects : ∀ first last, (∃ n ∈ s.skipped, first ≤ n ∧ n ≤ last) →
    s.filter.checkAck .data (first, last) = false
  accepts : ∀ first last, (∀ n, first ≤ n → n ≤ last → n ∈ s.allocated) →
    s.filter.checkAck .data (first, last) = true

/-- A single number is left out, and the one that follows it is not to be left out too. -/
def SkipsOnce (s : Allocator) (random : Nat) : Prop :=
  s.skips → s.filter.prevSkippedPacketNumber = none ∧ random ≠ s.space.nextPacketNumber + 1

end Allocator

def system : System Allocator Nat where
  initial s := ∃ random < 64, s = ⟨.new random, .new, [], [random], []⟩
  step := Allocator.allocate

/-- What is known while at most one number was left out. -/
structure Armed (s : Allocator) : Prop where
  lt_next : ∀ n ∈ s.allocated, n < s.space.nextPacketNumber
  increasing : s.allocated.Pairwise (· > ·)
  armed : s.space.nextPacketNumber ≤ s.filter.nextSkippedPacketNumber
  skipped : s.skipped = s.filter.prevSkippedPacketNumber.toList
  chosen : s.chosen = s.filter.nextSkippedPacketNumber :: s.skipped
  withheld : ∀ n ∈ s.skipped, n < s.space.nextPacketNumber ∧ n ∉ s.allocated
  first : s.filter.prevSkippedPacketNumber = none →
    s.filter.nextSkippedPacketNumber < 64 ∧ s.filter.exponent = 6

theorem Armed.lt_peek {s : Allocator} (h : Armed s) :
    ∀ n ∈ s.allocated, n < s.filter.peek s.space := by
  intro n hn
  have := h.lt_next n hn
  rw [peek]
  split_ifs <;> omega

theorem Armed.allocate {s s' : Allocator} {random : Nat} (h : Armed s)
    (honce : s.SkipsOnce random) (hstep : s.allocate random = some s') : Armed s' := by
  obtain ⟨⟨hlow, -⟩, hstep⟩ := Option.ite_none_right_eq_some.mp hstep
  split at hstep
  · cases hstep
  rename_i n filter space hallocate
  cases hstep
  obtain ⟨hn, hnext, hfilter⟩ := allocate_eq_ok hallocate
  have harmed := h.armed
  have hlt : ∀ m ∈ s.allocated, m < n := hn ▸ h.lt_peek
  have hle : ∀ m ∈ n :: s.allocated, m < space.nextPacketNumber := by
    rw [hnext]
    exact List.forall_mem_cons.mpr ⟨Nat.lt_succ_self n, fun m hm => Nat.lt_succ_of_lt (hlt m hm)⟩
  have hincreasing : (n :: s.allocated).Pairwise (· > ·) :=
    List.pairwise_cons.mpr ⟨hlt, h.increasing⟩
  rw [peek] at hn
  by_cases hskip : s.space.nextPacketNumber = s.filter.nextSkippedPacketNumber
  · have hskips : s.skips = true := decide_eq_true hskip
    obtain ⟨hnone, _⟩ := honce hskips
    obtain ⟨_, hexponent⟩ := h.first hnone
    have hskipped : s.skipped = [] := by rw [h.skipped, hnone]; rfl
    rw [if_neg (not_not.mpr hskip)] at hn
    rw [if_pos hskip] at hfilter
    rw [hexponent] at hlow
    subst hfilter
    simp only [hskips, if_true, hskipped]
    refine ⟨hle, hincreasing, ?_, by rw [hskip]; rfl, ?_, ?_, by rintro ⟨⟩⟩
    · dsimp only
      omega
    · rw [h.chosen, hskipped, hskip]
    · intro m hm
      rw [List.mem_singleton.mp hm, List.mem_cons, not_or]
      refine ⟨?_, by omega, fun hmem => lt_irrefl _ (h.lt_next _ hmem)⟩
      dsimp only
      omega
  · have hskips : s.skips = false := decide_eq_false hskip
    rw [if_pos hskip] at hn
    rw [if_neg hskip] at hfilter
    subst hfilter
    simp only [hskips, Bool.false_eq_true, if_false]
    refine ⟨hle, hincreasing, ?_, h.skipped, h.chosen, ?_, h.first⟩
    · dsimp only
      omega
    · intro m hm
      obtain ⟨_, hnot⟩ := h.withheld m hm
      rw [List.mem_cons, not_or]
      refine ⟨?_, by omega, hnot⟩
      dsimp only
      omega

theorem Armed.defended {s : Allocator} (h : Armed s) : s.Defended where
  increasing := h.increasing
  peeked random n filter space hallocate := by
    have hn := (allocate_eq_ok hallocate).1
    exact ⟨hn, hn ▸ h.lt_peek⟩
  withheld n hn hmem := by
    rw [h.chosen, List.mem_cons] at hn
    have harmed := h.armed
    rcases hn with rfl | hn
    · have := h.lt_next _ hmem
      omega
    · exact (h.withheld n hn).2 hmem
  armed := h.armed
  rejects first last := by
    rintro ⟨n, hn, hrange⟩
    rw [h.skipped, Option.mem_toList] at hn
    simp [checkAck, hn, hrange]
  accepts first last hall := by
    rw [checkAck]
    rcases hprev : s.filter.prevSkippedPacketNumber with _ | n
    · simp
    · have hn := (h.withheld n (by simp [h.skipped, hprev])).2
      have hout : first ≤ n → last < n := fun hle => not_le.mp fun hge => hn (hall n hle hge)
      simpa [imp_iff_not_or] using hout

theorem defended_of_skipsOnce {s : Allocator} (hs : system.ReachableVia Allocator.SkipsOnce s) :
    s.Defended := by
  have hinv : Armed s := by
    refine hs.invariant ?_ fun _ _ _ h honce hstep => h.allocate honce hstep
    rintro s ⟨random, hrandom, rfl⟩
    exact ⟨by simp, .nil, Nat.zero_le _, rfl, rfl, by simp, fun _ => ⟨hrandom, rfl⟩⟩
  exact hinv.defended

theorem defended_zero_skipped :
    ∃ s, system.ReachableVia Allocator.SkipsOnce s ∧ s.skipped = [0] ∧ s.Defended := by
  have hinitial : system.ReachableVia Allocator.SkipsOnce _ := .initial ⟨0, by decide, rfl⟩
  have hstep := hinitial.step (a := 65) (fun _ => ⟨rfl, by decide⟩) rfl
  exact ⟨_, hstep, rfl, defended_of_skipsOnce hstep⟩

/-- Numbers 0 and 64 are left out; an acknowledgement of number 0 then passes. -/
theorem skipped_number_accepted :
    ∃ s, system.Reachable s ∧ 0 ∈ s.skipped ∧ s.filter.checkAck .data (0, 0) = true := by
  have hinitial : system.Reachable _ := .initial ⟨0, by decide, rfl⟩
  exact hinitial.exists_of_run (64 :: List.replicate 63 128) ⟨_, rfl, by decide, rfl⟩

end Quac.SkippedNumbers
