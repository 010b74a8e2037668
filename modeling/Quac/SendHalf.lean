import Quac.SendData

/-!
The sending half of a stream, `connection/streams/send.rs`.
-/

namespace Quac.SendHalf

open Identifiers SendData List

inductive SendState
  | ready
  | dataSent (finishAcked : Bool)
  | resetSent
deriving DecidableEq

inductive WriteError
  | blocked
  | stopped (errorCode : Nat)
  | closedStream

inductive FinishError
  | stopped (errorCode : Nat)
  | closedStream

structure Written where
  bytes : Nat
  chunks : Nat

structure StreamMeta where
  id : StreamId
  start : Nat
  stop : Nat
  fin : Bool

structure Send where
  maxData : Nat
  state : SendState
  pending : SendBuffer
  priority : Int
  /-- A FIN must be sent even without new data. -/
  finPending : Bool
  /-- The stream is on the list of streams blocked on the connection. -/
  connectionBlocked : Bool
  stopReason : Option Nat

/-- `ByteSlice::pop_chunk`: a chunk, how many chunks of the source it completed,
and the rest of the source. -/
def popSlice (data : Bytes) (limit : Nat) : Bytes × Nat × Bytes :=
  let limit := limit.min data.length
  if limit = 0 then ([], 0, data)
  else
    let rest := data.drop limit
    (data.take limit, if rest.isEmpty then 1 else 0, rest)

namespace Send

def new (maxData : Nat) : Send :=
  ⟨maxData, .ready, .new, 0, false, false, none⟩

def isReset (s : Send) : Bool :=
  s.state == .resetSent

def isWritable (s : Send) : Bool :=
  s.state == .ready

def isPending (s : Send) : Bool :=
  s.pending.hasUnsentData || s.finPending

def offset (s : Send) : Nat :=
  s.pending.offset

def finish (s : Send) : Except FinishError Send :=
  match s.stopReason with
  | some errorCode => .error (.stopped errorCode)
  | none =>
    if s.state = .ready then .ok { s with state := .dataSent false, finPending := true }
    else .error .closedStream

/-- The loop of `write` over a source of chunks; every chunk but the last takes
some of the limit, which `fuel` exceeds.  There is nothing left of the source if the
loop still runs when `fuel` is used up. -/
def writeChunks {σ : Type*} (popChunk : σ → Nat → Bytes × Nat × σ) (fuel : Nat) (source : σ)
    (limit : Nat) (written : Written) (pending : SendBuffer) : Written × SendBuffer × Option σ :=
  match fuel with
  | 0 => (written, pending, none)
  | fuel + 1 =>
    let (chunk, consumed, source) := popChunk source limit
    let written : Written := ⟨written.bytes + chunk.length, written.chunks + consumed⟩
    if chunk.isEmpty then (written, pending, some source)
    else writeChunks popChunk fuel source (limit - chunk.length) written (pending.write chunk)

def write (s : Send) (data : Bytes) (limit : Nat) : Except WriteError (Written × Send) :=
  if !s.isWritable then .error .closedStream
  else
    match s.stopReason with
    | some errorCode => .error (.stopped errorCode)
    | none =>
      let budget := s.maxData - s.offset
      if budget = 0 then .error .blocked
      else
        let limit := limit.min budget
        let (written, pending, _) := writeChunks popSlice (limit + 1) data limit ⟨0, 0⟩ s.pending
        .ok (written, { s with pending })

def reset (s : Send) : Send :=
  match s.state with
  | .ready | .dataSent _ => { s with state := .resetSent }
  | .resetSent => s

/-- Whether STOP_SENDING stopped the stream just now. -/
def tryStop (s : Send) (errorCode : Nat) : Bool × Send :=
  match s.stopReason with
  | none => (true, { s with stopReason := some errorCode })
  | some _ => (false, s)

/-- Whether the stream is finished and fully acknowledged. -/
def ack (s : Send) (frame : StreamMeta) : Bool × Send :=
  let pending := s.pending.ack frame.start frame.stop
  match s.state with
  | .dataSent finishAcked =>
    let finishAcked := finishAcked || frame.fin
    (finishAcked && pending.isFullyAcked, { s with pending, state := .dataSent finishAcked })
  | .ready | .resetSent => (false, { s with pending })

/-- Whether the new limit unblocked the stream. -/
def increaseMaxData (s : Send) (offset : Nat) : Bool × Send :=
  if offset ≤ s.maxData ∨ s.state ≠ .ready then (false, s)
  else (s.offset == s.maxData, { s with maxData := offset })

theorem popSlice_of_eq_zero {data : Bytes} {limit : Nat} (h : limit.min data.length = 0) :
    popSlice data limit = ([], 0, data) := by
  rw [popSlice, if_pos h]

theorem popSlice_of_ne_zero {data : Bytes} {limit : Nat} (h : limit.min data.length ≠ 0) :
    popSlice data limit =
      (data.take limit, if (data.drop limit).isEmpty then 1 else 0, data.drop limit) := by
  rw [popSlice, if_neg h]
  rcases Nat.le_total limit data.length with hle | hle
  · rw [show limit.min data.length = limit from Nat.min_eq_left hle]
  · rw [show limit.min data.length = data.length from Nat.min_eq_right hle]
    simp [take_of_length_le hle, drop_eq_nil_of_le hle]

/-- A slice is written as one chunk: the part of it that the limit admits. -/
theorem writeChunks_popSlice (data : Bytes) (limit : Nat) (pending : SendBuffer) :
    ∃ chunks rest, writeChunks popSlice (limit + 1) data limit ⟨0, 0⟩ pending =
      (⟨limit.min data.length, chunks⟩,
        if limit.min data.length = 0 then pending else pending.write (data.take limit),
        some rest) := by
  by_cases h : limit.min data.length = 0
  · simp [writeChunks, popSlice_of_eq_zero h, h]
  · -- The second round finds the slice or the limit used up.
    obtain ⟨fuel, rfl⟩ : ∃ fuel, limit = fuel + 1 :=
      Nat.exists_eq_succ_of_ne_zero fun h0 => h (by simp [h0])
    have hlen : (data.take (fuel + 1)).length = (fuel + 1).min data.length := length_take
    have hne : (data.take (fuel + 1)).isEmpty = false := by
      rw [isEmpty_eq_false_iff, ← length_pos_iff, hlen]
      exact Nat.pos_of_ne_zero h
    have hrest : (fuel + 1 - (data.take (fuel + 1)).length).min
        (data.drop (fuel + 1)).length = 0 := by
      rw [hlen, length_drop]
      change min (fuel + 1 - min (fuel + 1) data.length) (data.length - (fuel + 1)) = 0
      omega
    refine ⟨if (data.drop (fuel + 1)).isEmpty then 1 else 0, data.drop (fuel + 1), ?_⟩
    rw [writeChunks, popSlice_of_ne_zero h]
    simp only [hne, Bool.false_eq_true, if_false, zero_add]
    rw [writeChunks, popSlice_of_eq_zero hrest]
    simp only [isEmpty_nil, if_true, length_nil, add_zero, hlen, if_neg h]

/-- A write takes as much of the data as the two limits allot. -/
theorem write_eq_ok {s s' : Send} {data : Bytes} {limit : Nat} {written : Written}
    (h : s.write data limit = .ok (written, s')) :
    s.state = .ready ∧ written.bytes ≤ limit ∧ written.bytes ≤ s.maxData - s.offset ∧
      written.bytes ≤ data.length ∧ s' = if (data.take written.bytes).isEmpty then s
        else { s with pending := s.pending.write (data.take written.bytes) } := by
  unfold write at h
  split_ifs at h with hready
  split at h
  · cases h
  · dsimp only at h
    split_ifs at h
    obtain ⟨_, _, hchunks⟩ := writeChunks_popSlice data (limit.min (s.maxData - s.offset)) s.pending
    rw [hchunks] at h
    cases h
    have htake : data.take ((limit.min (s.maxData - s.offset)).min data.length) =
        data.take (limit.min (s.maxData - s.offset)) := by
      rw [take_eq_take_iff]
      change min (min _ _) _ = min _ _
      omega
    refine ⟨by simpa [isWritable] using hready, ?_, ?_, Nat.min_le_right _ _, ?_⟩
    · exact le_trans (Nat.min_le_left _ _) (Nat.min_le_left _ _)
    · exact le_trans (Nat.min_le_left _ _) (Nat.min_le_right _ _)
    · rw [htake]
      have hempty : (data.take (limit.min (s.maxData - s.offset))).isEmpty = true ↔
          (limit.min (s.maxData - s.offset)).min data.length = 0 := by
        rw [List.isEmpty_iff, ← List.length_eq_zero_iff, List.length_take]
      split_ifs with h0 hnil hnil
      · rfl
      · exact absurd (hempty.mpr h0) hnil
      · exact absurd (hempty.mp hnil) h0
      · rfl

end Send

end Quac.SendHalf
