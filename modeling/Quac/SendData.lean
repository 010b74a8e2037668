import Quac.Identifiers
import Quac.Ranges

/-!
The buffer of outgoing stream data, `connection/send_buffer.rs`.
-/

namespace Quac.SendData

open Identifiers Ranges

structure SendBuffer where
  /-- Data the application queued and the peer has not acknowledged. -/
  unackedSegments : List Bytes
  unackedLen : Nat
  /-- The first offset the application has not written. -/
  offset : Nat
  /-- The first offset that has not been sent. -/
  unsent : Nat
  /-- Acknowledged ranges behind an unacknowledged one. -/
  acks : RangeSet
  retransmits : RangeSet

namespace SendBuffer

def new : SendBuffer :=
  ⟨[], 0, 0, 0, .empty, .empty⟩

def write (b : SendBuffer) (data : Bytes) : SendBuffer :=
  { b with
    unackedLen := b.unackedLen + data.length
    offset := b.offset + data.length
    unackedSegments := b.unackedSegments ++ [data] }

def advance : List Bytes → Nat → List Bytes
  | [], _ => []
  | segment :: rest, n =>
    if n = 0 then segment :: rest
    else if segment.length ≤ n then advance rest (n - segment.length)
    else segment.drop n :: rest

/-- Discard the acknowledged ranges that have reached the front; `fuel` bounds
their number. -/
def discardAcked (fuel : Nat) (b : SendBuffer) : SendBuffer :=
  match fuel with
  | 0 => b
  | fuel + 1 =>
    if b.acks.min = some (b.offset - b.unackedLen) then
      match b.acks.popMin with
      | none => b
      | some ((start, stop), acks) =>
        discardAcked fuel { b with
          acks
          unackedLen := b.unackedLen - (stop - start)
          unackedSegments := advance b.unackedSegments (stop - start) }
    else b

def ack (b : SendBuffer) (start stop : Nat) : SendBuffer :=
  let base := b.offset - b.unackedLen
  let acks := b.acks.insert (base.max start) (base.max stop)
  discardAcked acks.ranges.length { b with acks }

/-- The next range to transmit in at most `maxLen` bytes of offset, length and
data, and whether its length has to be encoded. -/
def pollTransmit (b : SendBuffer) (maxLen : Nat) : (Nat × Nat) × Bool × SendBuffer :=
  match b.retransmits.popMin with
  | some ((start, stop), retransmits) =>
    let maxLen := if start ≠ 0 then maxLen - varIntSize start else maxLen
    let encodeLength := decide (stop - start < maxLen)
    let maxLen := if encodeLength then maxLen - 8 else maxLen
    let sentStop := stop.min (maxLen + start)
    let retransmits := if sentStop ≠ stop then retransmits.insert sentStop stop else retransmits
    ((start, sentStop), encodeLength, { b with retransmits })
  | none =>
    let maxLen := if b.unsent ≠ 0 then maxLen - varIntSize b.unsent else maxLen
    let encodeLength := decide (b.offset - b.unsent < maxLen)
    let maxLen := if encodeLength then maxLen - 8 else maxLen
    let sentStop := b.offset.min (maxLen + b.unsent)
    ((b.unsent, sentStop), encodeLength, { b with unsent := sentStop })

/-- The loop of `get`: what the segment that holds `start` has of the range. -/
def getFrom (start stop : Nat) : Nat → List Bytes → Bytes
  | _, [] => []
  | segmentOffset, segment :: rest =>
    if segmentOffset ≤ start ∧ start < segmentOffset + segment.length then
      (segment.take (stop - segmentOffset)).drop (start - segmentOffset)
    else getFrom start stop (segmentOffset + segment.length) rest

def get (b : SendBuffer) (start stop : Nat) : Bytes :=
  getFrom start stop (b.offset - b.unackedLen) b.unackedSegments

/-- The loop of `write_stream_frames` that copies a range into a frame; `fuel` is
the length of the range.  Where `get` has nothing to give, the source stays in the
loop for ever and the result is too short. -/
def copyRange (b : SendBuffer) : Nat → Nat → Nat → Bytes
  | 0, _, _ => []
  | fuel + 1, start, stop =>
    if start = stop then []
    else
      let data := b.get start stop
      if data.isEmpty then [] else data ++ copyRange b fuel (start + data.length) stop

def retransmit (b : SendBuffer) (start stop : Nat) : SendBuffer :=
  { b with retransmits := b.retransmits.insert start stop }

def retransmitAllFor0rtt (b : SendBuffer) : SendBuffer :=
  { b with unsent := 0 }

def isFullyAcked (b : SendBuffer) : Bool :=
  b.unackedLen == 0

def hasUnsentData (b : SendBuffer) : Bool :=
  b.unsent != b.offset || !b.retransmits.isEmpty

def unacked (b : SendBuffer) : Nat :=
  b.unackedLen - b.acks.total

@[simp] theorem write_offset (b : SendBuffer) (data : Bytes) :
    (b.write data).offset = b.offset + data.length :=
  rfl

theorem discardAcked_offset (fuel : Nat) (b : SendBuffer) :
    (b.discardAcked fuel).offset = b.offset := by
  induction fuel generalizing b with
  | zero => rfl
  | succ _ ih =>
    unfold discardAcked
    split
    · split
      · rfl
      · rw [ih]
    · rfl

@[simp] theorem ack_offset (b : SendBuffer) (start stop : Nat) :
    (b.ack start stop).offset = b.offset :=
  discardAcked_offset _ _

@[simp] theorem pollTransmit_offset (b : SendBuffer) (maxLen : Nat) :
    (b.pollTransmit maxLen).2.2.offset = b.offset := by
  unfold pollTransmit
  split <;> rfl

end SendBuffer

end Quac.SendData
