import Quac.Streams

/-!
What a connection offers to its user for each stream: `Streams`, `SendStream`,
`RecvStream` and `Chunks` of `connection/streams`.  `closed` says whether the
connection is.
-/

namespace Quac.StreamAccess

open Identifiers Reassembly RecvHalf SendHalf Streams

def openStream (s : StreamsState) (closed : Bool) (dir : Dir) : Option StreamId × StreamsState :=
  if closed then (none, s)
  else if s.max dir ≤ s.next dir then
    (none, { s with streamsBlocked := Function.update s.streamsBlocked dir true })
  else
    let id : StreamId := ⟨s.side, dir, s.next dir⟩
    let s := { s with next := Function.update s.next dir (s.next dir + 1) }
    let s := s.insert false id
    (some id, { s with sendStreams := s.sendStreams + 1 })

def acceptStream (s : StreamsState) (dir : Dir) : Option StreamId × StreamsState :=
  if s.nextRemote dir = s.nextReportedRemote dir then (none, s)
  else
    let x := s.nextReportedRemote dir
    (some ⟨s.side.peer, dir, x⟩, { s with
        nextReportedRemote := Function.update s.nextReportedRemote dir (x + 1)
        sendStreams := if dir = .bi then s.sendStreams + 1 else s.sendStreams })

/-- `Streams::remote_open_streams`: of the streams opened by the peer, those that
are not closed yet. -/
def remoteOpenStreams (s : StreamsState) (dir : Dir) : Nat :=
  s.nextRemote dir - (s.maxRemote dir - s.allocatedRemoteCount dir)

def writeStream (s : StreamsState) (closed : Bool) (id : StreamId) (data : Bytes) :
    Except WriteError Nat × StreamsState :=
  if closed then (.error .blocked, s)
  else
    let limit := s.writeLimit
    match s.getSend id with
    | none => (.error .closedStream, s)
    | some half =>
      let s := s.setSend id half
      if limit = 0 then
        if half.connectionBlocked then (.error .blocked, s)
        else
          (.error .blocked, { s.setSend id { half with connectionBlocked := true } with
              connectionBlocked := s.connectionBlocked ++ [id] })
      else
        match half.write data limit with
        | .error e => (.error e, s)
        | .ok (written, writtenHalf) =>
          let s := s.setSend id writtenHalf
          (.ok written.bytes, { s with
              dataSent := s.dataSent + written.bytes
              unackedData := s.unackedData + written.bytes
              pending :=
                if half.isPending then s.pending
                else s.pending.pushPending id half.priority })

/-- The bytes of `data` that a write with this result has accepted. -/
def acceptedBytes (data : Bytes) : Except WriteError Nat → Bytes
  | .ok n => data.take n
  | .error _ => []

theorem acceptedBytes_writeStream {s : StreamsState} {id : StreamId} {half : Send} {data : Bytes}
    (hsend : s.getSend id = some half) (hwritable : half.isWritable = true)
    (hstop : half.stopReason = none) (hlimit : data.length ≤ s.writeLimit)
    (hbudget : data.length ≤ half.maxData - half.offset) :
    acceptedBytes data (writeStream s false id data).1 = data := by
  rcases data with _ | ⟨byte, rest⟩
  · unfold acceptedBytes
    split
    · exact List.take_nil
    · rfl
  · generalize hdata : byte :: rest = data at hlimit hbudget ⊢
    have hpos : 0 < data.length := by
      rw [← hdata]
      exact Nat.succ_pos _
    have hwhole : (s.writeLimit.min (half.maxData - half.offset)).min data.length = data.length :=
      Nat.min_eq_right (Nat.le_min.mpr ⟨hlimit, hbudget⟩)
    obtain ⟨chunks, _, hchunks⟩ := Send.writeChunks_popSlice data
      (s.writeLimit.min (half.maxData - half.offset)) half.pending
    rw [hwhole] at hchunks
    have hwrite : ∃ half', half.write data s.writeLimit = .ok (⟨data.length, chunks⟩, half') := by
      simp only [Send.write, hwritable, hstop, hchunks, Bool.not_true, Bool.false_eq_true, if_false]
      rw [if_neg (by omega)]
      exact ⟨_, rfl⟩
    obtain ⟨_, hwrite⟩ := hwrite
    have hne : s.writeLimit ≠ 0 := by omega
    simp only [writeStream, hsend, hne, hwrite, Bool.false_eq_true, if_false, acceptedBytes]
    exact List.take_length

def finishStream (s : StreamsState) (id : StreamId) : Except FinishError Unit × StreamsState :=
  match s.getSend id with
  | none => (.error .closedStream, s)
  | some half =>
    match half.finish with
    | .error e => (.error e, s.setSend id half)
    | .ok finished =>
      (.ok (), { s.setSend id finished with
          pending :=
            if half.isPending then s.pending
            else s.pending.pushPending id half.priority })

/-- `SendStream::reset`; `false` is `ClosedStream`. -/
def resetStream (s : StreamsState) (pending : Retransmits) (id : StreamId) (errorCode : Nat) :
    Bool × StreamsState × Retransmits :=
  match s.getSend id with
  | none => (false, s, pending)
  | some half =>
    if half.isReset then (false, s.setSend id half, pending)
    else
      (true,
        { s.setSend id half.reset with
          unackedData := StreamsState.wrappingSub s.unackedData half.pending.unacked },
        { pending with resetStream := pending.resetStream ++ [(id, errorCode)] })

/-- `SendStream::set_priority`; `false` is `ClosedStream`. -/
def setPriority (s : StreamsState) (id : StreamId) (priority : Int) : Bool × StreamsState :=
  match s.getSend id with
  | none => (false, s)
  | some half => (true, s.setSend id { half with priority })

inductive ReadableError
  | closedStream
  | illegalOrderedRead

inductive ReadError
  | blocked
  | reset (errorCode : Nat)

inductive ChunksState
  | readable (recv : Recv)
  | reset (errorCode : Nat)
  | finished

/-- A read in progress; the stream's half is out of `streams` meanwhile. -/
structure Chunks where
  id : StreamId
  ordered : Bool
  streams : StreamsState
  state : ChunksState
  read : Nat

/-- `Chunks::new`; an error leaves the streams as the second component of it. -/
def Chunks.new (id : StreamId) (ordered : Bool) (s : StreamsState) :
    Except (ReadableError × StreamsState) Chunks :=
  match s.getRecv id with
  | none => .error (.closedStream, s)
  | some recv =>
    if recv.stopped then .error (.closedStream, s.setRecv id recv)
    else
      match recv.assembler.ensureOrdering ordered with
      | none => .error (.illegalOrderedRead, s.removeRecv id)
      | some assembler =>
        .ok ⟨id, ordered, s.removeRecv id, .readable { recv with assembler }, 0⟩

def Chunks.next (c : Chunks) (maxLength : Nat) : Except ReadError (Option Chunk) × Chunks :=
  match c.state with
  | .reset errorCode => (.error (.reset errorCode), c)
  | .finished => (.ok none, c)
  | .readable recv =>
    match recv.assembler.read maxLength c.ordered with
    | (some chunk, assembler) =>
      (.ok (some chunk), { c with
          read := c.read + chunk.bytes.length
          state := .readable { recv with assembler } })
    | (none, assembler) =>
      let recv := { recv with assembler }
      match recv.state with
      | .resetRecvd _ errorCode =>
        (.error (.reset errorCode), { c with
            state := .reset errorCode
            streams := c.streams.streamRecvFreed c.id (.opened recv) })
      | .recv size =>
        if size = some recv.stop ∧ assembler.bytesRead = recv.stop then
          (.ok none, { c with
              state := .finished
              streams := c.streams.streamRecvFreed c.id (.opened recv) })
        else (.error .blocked, { c with state := .readable recv })

/-- `Chunks::finalize`: put the half back and give credit for what was read. -/
def Chunks.finalize (c : Chunks) (pending : Retransmits) : StreamsState × Retransmits :=
  let pending := c.streams.queueMaxStreamId pending
  let (s, pending) :=
    match c.state with
    | .readable recv =>
      (c.streams.setRecv c.id recv, if (recv.maxStreamData c.streams.streamReceiveWindow).2 then
          { pending with maxStreamData := pending.maxStreamData.insert c.id }
        else pending)
    | .reset _ | .finished => (c.streams, pending)
  let (maxData, s) := s.addReadCredits c.read
  (s, { pending with maxData := pending.maxData || maxData })

/-- One call of `next` for each of the lengths, in order. -/
def Chunks.nextEach (c : Chunks) : List Nat → List (Except ReadError (Option Chunk)) × Chunks
  | [] => ([], c)
  | maxLength :: rest =>
    let (result, c) := c.next maxLength
    let (results, c) := c.nextEach rest
    (result :: results, c)

/-- A read from `RecvStream::read` on until its `Chunks` are finalized.  They borrow
the streams, so that nothing else happens to these meanwhile. -/
def readStream (s : StreamsState) (pending : Retransmits) (id : StreamId) (maxLengths : List Nat) :
    List (Except ReadError (Option Chunk)) × StreamsState × Retransmits :=
  match Chunks.new id true s with
  | .error (_, s) => ([], s, pending)
  | .ok chunks =>
    let (results, chunks) := chunks.nextEach maxLengths
    (results, chunks.finalize pending)

/-- The same for reads of either kind; the error of `RecvStream::read` is reported. -/
def readEither (s : StreamsState) (pending : Retransmits) (id : StreamId) (ordered : Bool)
    (maxLengths : List Nat) :
    Except ReadableError (List (Except ReadError (Option Chunk))) × StreamsState × Retransmits :=
  match Chunks.new id ordered s with
  | .error (e, s) => (.error e, s, pending)
  | .ok chunks =>
    let (results, chunks) := chunks.nextEach maxLengths
    (.ok results, chunks.finalize pending)

/-- `RecvStream::received_reset`: the error code, if the stream was reset; `none` is
`ClosedStream`. -/
def receivedResetCode (s : StreamsState) (pending : Retransmits) (id : StreamId) :
    Option (Option Nat) × StreamsState × Retransmits :=
  match s.recv id with
  | none => (none, s, pending)
  | some (some (.opened recv)) =>
    if recv.stopped then (none, s, pending)
    else
      match recv.state with
      | .recv _ => (some none, s, pending)
      | .resetRecvd _ errorCode =>
        let s := (s.removeRecv id).streamRecvFreed id (.opened recv)
        (some (some errorCode), s, s.queueMaxStreamId pending)
  | some _ => (some none, s, pending)

/-- `RecvStream::stop`; `false` is `ClosedStream`. -/
def stopStream (s : StreamsState) (pending : Retransmits) (id : StreamId) (errorCode : Nat) :
    Bool × StreamsState × Retransmits :=
  match s.getRecv id with
  | none => (false, s, pending)
  | some recv =>
    match recv.stopReceiving with
    | none => (false, s.setRecv id recv, pending)
    | some ((readCredits, stopSending), recv) =>
      let pending :=
        if stopSending then
          { pending with stopSending := pending.stopSending ++ [(id, errorCode)] }
        else pending
      let s := s.setRecv id recv
      let s :=
        if recv.finalOffsetUnknown then s
        else (s.removeRecv id).streamRecvFreed id (.opened recv)
      let (maxData, s) := s.addReadCredits readCredits
      (true, s, { pending with maxData := pending.maxData || maxData })

end Quac.StreamAccess
