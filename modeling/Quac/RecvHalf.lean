import Quac.Reassembly

/-!
The receiving half of a stream, `connection/streams/recv.rs`.
-/

namespace Quac.RecvHalf

open Identifiers Reassembly

inductive TransportErrorCode
  | flowControlError
  | finalSizeError
  | streamStateError
  | streamLimitError
  | frameEncodingError
  | protocolViolation
  | aeadLimitReached
  | other (code : Nat)
deriving DecidableEq

structure TransportError where
  code : TransportErrorCode
  reason : String
deriving DecidableEq

structure StreamFrame where
  id : StreamId
  offset : Nat
  fin : Bool
  data : Bytes
deriving DecidableEq

inductive RecvState
  | recv (size : Option Nat)
  | resetRecvd (size errorCode : Nat)
deriving DecidableEq

structure Recv where
  state : RecvState
  assembler : Assembler
  sentMaxStreamData : Nat
  /-- The highest offset received. -/
  stop : Nat
  stopped : Bool

namespace Recv

def new (initialMaxData : Nat) : Recv :=
  ⟨.recv none, .new, initialMaxData, 0, false⟩

def finalOffset (r : Recv) : Option Nat :=
  match r.state with
  | .recv size => size
  | .resetRecvd size _ => some size

def finalOffsetUnknown (r : Recv) : Bool :=
  r.state == .recv none

def canSendFlowControl (r : Recv) : Bool :=
  r.finalOffsetUnknown && !r.stopped

def isReceiving (r : Recv) : Bool :=
  match r.state with
  | .recv _ => true
  | .resetRecvd _ _ => false

theorem isReceiving_of_finalOffsetUnknown {r : Recv} (h : r.finalOffsetUnknown = true) :
    r.isReceiving = true := by
  simp only [finalOffsetUnknown, beq_iff_eq] at h
  simp [isReceiving, h]

/-- The flow control credit that data up to `offset` takes, if the peer has it. -/
def creditConsumedBy (r : Recv) (offset received maxData : Nat) : Except TransportError Nat :=
  let newBytes := offset - r.stop
  if r.sentMaxStreamData < offset ∨ maxData < received + newBytes then
    .error ⟨.flowControlError, ""⟩
  else .ok newBytes

/-- Process a STREAM frame: the number of new bytes, and whether a stopped stream
is now closed. -/
def ingest (r : Recv) (frame : StreamFrame) (payloadLen received maxData : Nat) :
    Except TransportError (Nat × Bool × Recv) :=
  let stop := frame.offset + frame.data.length
  if 2 ^ 62 ≤ stop then .error ⟨.flowControlError, "maximum stream offset too large"⟩
  else if r.finalOffset.any fun final => final < stop || (frame.fin && stop != final) then
    .error ⟨.finalSizeError, ""⟩
  else do
    let newBytes ← r.creditConsumedBy stop received maxData
    let state :=
      match r.state with
      | .recv size => if frame.fin && !r.stopped then .recv (some stop) else .recv size
      | state => state
    let assembler :=
      if r.stopped then r.assembler
      else r.assembler.insert frame.offset frame.data payloadLen
    return (newBytes, frame.fin && r.stopped, { r with state, assembler, stop := r.stop.max stop })

/-- `Recv::stop`: the credit for the data that was not read, and whether the peer
should be told; `none` is `ClosedStream`. -/
def stopReceiving (r : Recv) : Option ((Nat × Bool) × Recv) :=
  if r.stopped then none
  else
    let r := { r with stopped := true, assembler := r.assembler.clear }
    some ((r.stop - r.assembler.bytesRead, r.isReceiving), r)

/-- The window to advertise, and whether the change is worth a frame. -/
def maxStreamData (r : Recv) (streamReceiveWindow : Nat) : Nat × Bool :=
  let max := r.assembler.bytesRead + streamReceiveWindow
  (max, r.canSendFlowControl && decide (streamReceiveWindow / 8 ≤ max - r.sentMaxStreamData))

def recordSentMaxStreamData (r : Recv) (sent : Nat) : Recv :=
  if r.sentMaxStreamData < sent then { r with sentMaxStreamData := sent } else r

/-- Process a RESET_STREAM frame; `none` when it is redundant. -/
def reset (r : Recv) (errorCode finalOffset received maxData : Nat) :
    Except TransportError (Option Recv) := do
  match r.finalOffset with
  | some offset =>
    if offset ≠ finalOffset then throw ⟨.finalSizeError, "inconsistent value"⟩
  | none =>
    if finalOffset < r.stop then throw ⟨.finalSizeError, "lower than high water mark"⟩
  let _ ← r.creditConsumedBy finalOffset received maxData
  match r.state with
  | .resetRecvd _ _ => return none
  | .recv _ =>
    return some { r with
      state := .resetRecvd finalOffset errorCode
      assembler := r.assembler.clear }

def Admits (r : Recv) (stop : Nat) (fin : Bool) (received maxData : Nat) : Prop :=
  stop < 2 ^ 62 ∧ (∀ final ∈ r.finalOffset, stop ≤ final ∧ (fin = true → stop = final)) ∧
    stop ≤ r.sentMaxStreamData ∧ received + (stop - r.stop) ≤ maxData

def ingested (r : Recv) (frame : StreamFrame) (payloadLen : Nat) : Recv :=
  { r with
    state :=
      match r.state with
      | .recv size =>
        if frame.fin && !r.stopped then .recv (some (frame.offset + frame.data.length))
        else .recv size
      | state => state
    assembler :=
      if r.stopped then r.assembler else r.assembler.insert frame.offset frame.data payloadLen
    stop := r.stop.max (frame.offset + frame.data.length) }

theorem creditConsumedBy_eq_ok {r : Recv} {offset received maxData n : Nat} :
    r.creditConsumedBy offset received maxData = .ok n ↔
      offset ≤ r.sentMaxStreamData ∧ received + (offset - r.stop) ≤ maxData ∧
        n = offset - r.stop := by
  unfold creditConsumedBy
  dsimp only
  split_ifs with h
  · constructor
    · intro heq
      cases heq
    · omega
  · constructor
    · intro heq
      cases heq
      exact ⟨by omega, by omega, rfl⟩
    · rintro ⟨-, -, rfl⟩
      rfl

theorem ingest_eq_ok {r : Recv} {frame : StreamFrame} {payloadLen received maxData : Nat}
    {result : Nat × Bool × Recv} :
    r.ingest frame payloadLen received maxData = .ok result ↔
      r.Admits (frame.offset + frame.data.length) frame.fin received maxData ∧
        result = (frame.offset + frame.data.length - r.stop, frame.fin && r.stopped,
          r.ingested frame payloadLen) := by
  have hfinal : (r.finalOffset.any fun final =>
      final < frame.offset + frame.data.length ||
        (frame.fin && frame.offset + frame.data.length != final)) = true ↔
      ¬ ∀ final ∈ r.finalOffset, frame.offset + frame.data.length ≤ final ∧
        (frame.fin = true → frame.offset + frame.data.length = final) := by
    rcases r.finalOffset with _ | final
    · simp
    · simp only [Option.any_some, Bool.or_eq_true, decide_eq_true_eq, Bool.and_eq_true, bne_iff_ne,
        Option.mem_some_iff, forall_eq', not_and_or, not_le]
      tauto
  unfold ingest Admits
  by_cases hlarge : 2 ^ 62 ≤ frame.offset + frame.data.length
  · rw [if_pos hlarge]
    constructor
    · intro h
      cases h
    · rintro ⟨⟨hlt, -⟩, -⟩
      exact absurd hlarge (Nat.not_le_of_lt hlt)
  · rw [if_neg hlarge]
    by_cases hsize : ∀ final ∈ r.finalOffset, frame.offset + frame.data.length ≤ final ∧
        (frame.fin = true → frame.offset + frame.data.length = final)
    · rw [if_neg (by rw [hfinal]; exact not_not_intro hsize)]
      rcases hcredit : r.creditConsumedBy (frame.offset + frame.data.length) received maxData with
        e | n
      · constructor
        · intro h
          cases h
        · rintro ⟨⟨-, -, hstream, hconn⟩, -⟩
          rw [creditConsumedBy_eq_ok.mpr ⟨hstream, hconn, rfl⟩] at hcredit
          cases hcredit
      · obtain ⟨hstream, hconn, rfl⟩ := creditConsumedBy_eq_ok.mp hcredit
        constructor
        · intro h
          cases h
          exact ⟨⟨lt_of_not_ge hlarge, hsize, hstream, hconn⟩, rfl⟩
        · rintro ⟨-, rfl⟩
          rfl
    · rw [if_pos (hfinal.mpr hsize)]
      constructor
      · intro h
        cases h
      · rintro ⟨⟨-, h, -⟩, -⟩
        exact absurd h hsize

def AdmitsReset (r : Recv) (finalOffset received maxData : Nat) : Prop :=
  (∀ final ∈ r.finalOffset, final = finalOffset) ∧ (r.finalOffset = none → r.stop ≤ finalOffset) ∧
    finalOffset ≤ r.sentMaxStreamData ∧ received + (finalOffset - r.stop) ≤ maxData

theorem reset_eq_ok_iff {r : Recv} {errorCode finalOffset received maxData : Nat}
    {result : Option Recv} :
    r.reset errorCode finalOffset received maxData = .ok result ↔
      r.AdmitsReset finalOffset received maxData ∧ result = if r.isReceiving then
          some { r with state := .resetRecvd finalOffset errorCode, assembler := r.assembler.clear }
        else none := by
  unfold reset AdmitsReset isReceiving
  simp only [bind, Except.bind, pure, Except.pure, throw, throwThe, MonadExceptOf.throw]
  rcases hcredit : r.creditConsumedBy finalOffset received maxData with e | n
  · constructor
    · intro h
      repeat' split at h
      all_goals contradiction
    · rintro ⟨⟨-, -, hstream, hconn⟩, -⟩
      rw [creditConsumedBy_eq_ok.mpr ⟨hstream, hconn, rfl⟩] at hcredit
      cases hcredit
  · obtain ⟨hstream, hconn, -⟩ := creditConsumedBy_eq_ok.mp hcredit
    rcases r.finalOffset with _ | final
    · by_cases hstop : finalOffset < r.stop
      · simp [hstop, Nat.not_le_of_lt hstop]
      · rcases r.state with size | ⟨size, code⟩ <;>
          simp [hstop, le_of_not_gt hstop, hstream, hconn, eq_comm]
    · by_cases hfinal : final = finalOffset
      · rcases r.state with size | ⟨_, _⟩ <;> simp [hfinal, hstream, hconn, eq_comm]
      · simp [hfinal]

end Recv

/-- A slot for the receiving half of a stream, which outlives the stream. -/
inductive StreamRecv
  | free (recv : Recv)
  | opened (recv : Recv)

def StreamRecv.release (initialMaxData : Nat) : StreamRecv → StreamRecv
  | .free recv => .free recv
  | .opened _ => .free (Recv.new initialMaxData)

def getOrInsertRecv (initialMaxData : Nat) : Option StreamRecv → Recv
  | some (.free recv) | some (.opened recv) => recv
  | none => Recv.new initialMaxData

end Quac.RecvHalf
