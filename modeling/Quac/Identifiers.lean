import Mathlib.Algebra.Ring.Nat
import Mathlib.Logic.Function.Basic

/-!
Sides, directions and stream identifiers, and the sizes of variable-length
integers.
-/

namespace Quac.Identifiers

abbrev Bytes := List UInt8

/-- Time, in ticks since the start of the program. -/
abbrev Instant := Nat

inductive Side
  | client
  | server
deriving DecidableEq

def Side.peer : Side → Side
  | .client => .server
  | .server => .client

inductive Dir
  | bi
  | uni
deriving DecidableEq

def Dir.all : List Dir :=
  [.bi, .uni]

structure StreamId where
  initiator : Side
  dir : Dir
  index : Nat
deriving DecidableEq

def StreamId.toNat (id : StreamId) : Nat :=
  4 * id.index + (match id.dir with | .bi => 0 | .uni => 2) +
    (match id.initiator with | .client => 0 | .server => 1)

/-- The stream a number on the wire stands for: its lowest bit is the initiator, the next
one the direction. -/
def StreamId.ofNat (x : Nat) : StreamId where
  initiator := if x % 2 = 0 then .client else .server
  dir := if x / 2 % 2 = 0 then .bi else .uni
  index := x / 4

def varIntMax : Nat := 2 ^ 62 - 1

def varIntSize (x : Nat) : Nat :=
  if x < 2 ^ 6 then 1 else if x < 2 ^ 14 then 2 else if x < 2 ^ 30 then 4 else 8

theorem varIntSize_le (n : Nat) : varIntSize n ≤ 8 := by
  unfold varIntSize
  repeat' split
  all_goals omega

def maxStreamCount : Nat := 2 ^ 60

theorem StreamId.ofNat_toNat (id : StreamId) : .ofNat id.toNat = id := by
  rcases id with ⟨initiator, dir, _⟩
  rcases initiator <;> rcases dir <;>
    simp only [StreamId.ofNat, StreamId.toNat, StreamId.mk.injEq]
  · exact ⟨if_pos (by omega), if_pos (by omega), by omega⟩
  · exact ⟨if_pos (by omega), if_neg (by omega), by omega⟩
  · exact ⟨if_neg (by omega), if_pos (by omega), by omega⟩
  · exact ⟨if_neg (by omega), if_neg (by omega), by omega⟩

end Quac.Identifiers
