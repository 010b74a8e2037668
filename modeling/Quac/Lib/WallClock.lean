import Mathlib.Tactic.NormNum
import Mathlib.Algebra.Ring.Nat

/-!
Points of wall-clock time and spans between them, counted in nanoseconds.  A
point is a signed 64-bit number of seconds and a part of a second, a span an
unsigned one.
-/

namespace Quac.Lib.WallClock

def nanosPerSec : Nat := 1000000000

/-- The first number of nanoseconds past the largest signed 64-bit second. -/
def horizon : Nat := 2 ^ 63 * nanosPerSec

structure Duration where
  nanos : Nat
  lt_range : nanos < 2 * horizon
deriving DecidableEq

structure SystemTime where
  nanos : Int
  ge_range : -(horizon : Int) ≤ nanos
  lt_range : nanos < horizon
deriving DecidableEq

def unixEpoch : SystemTime :=
  ⟨0, by decide, by decide⟩

def Duration.fromSecs (secs : UInt64) : Duration :=
  ⟨nanosPerSec * secs.toNat, by
    have hrange : nanosPerSec * UInt64.size = 2 * horizon := by decide
    rw [← hrange]
    exact Nat.mul_lt_mul_of_pos_left secs.toNat_lt_size (by decide)⟩

def Duration.asSecs (d : Duration) : Nat :=
  d.nanos / nanosPerSec

/-- `none` past the end of the range. -/
def SystemTime.checkedAdd (t : SystemTime) (d : Duration) : Option SystemTime :=
  if h : d.nanos < (horizon - t.nanos).toNat then
    some ⟨t.nanos + d.nanos, by have := t.ge_range; omega, by omega⟩
  else none

/-- `none` when `earlier` is the later one. -/
def SystemTime.durationSince (t earlier : SystemTime) : Option Duration :=
  if earlier.nanos ≤ t.nanos then
    some ⟨(t.nanos - earlier.nanos).toNat, by
      have := t.lt_range
      have := earlier.ge_range
      have : 0 < horizon := by decide
      omega⟩
  else none

variable {t earlier later : SystemTime} {d : Duration}

theorem SystemTime.checkedAdd_of_eq (h : t.nanos + d.nanos = later.nanos) :
    t.checkedAdd d = some later := by
  have hlt := later.lt_range
  have hroom : d.nanos < (horizon - t.nanos).toNat := by omega
  rw [checkedAdd, dif_pos hroom]
  simp only [h]

theorem SystemTime.checkedAdd_eq_none_iff :
    t.checkedAdd d = none ↔ horizon ≤ t.nanos + d.nanos := by
  unfold checkedAdd
  split_ifs with hroom
  · exact iff_of_false (by simp) (by omega)
  · exact iff_of_true rfl (by omega)

theorem SystemTime.checkedAdd_eq_some (h : t.checkedAdd d = some later) :
    later.nanos = t.nanos + d.nanos := by
  unfold checkedAdd at h
  split at h
  · cases h
    rfl
  · simp at h

theorem SystemTime.durationSince_eq_some (h : t.durationSince earlier = some d) :
    t.nanos = earlier.nanos + d.nanos := by
  unfold durationSince at h
  split at h
  · cases h
    dsimp only
    omega
  · simp at h

end Quac.Lib.WallClock
