import Quac.Streams

/-!
The frames that streams put into a packet: `write_control_frames` and
`write_stream_frames` of `connection/streams/state.rs`.  Of the packet's buffer
only the length and the list of frames matter here.
-/

namespace Quac.StreamTransmit

open Identifiers RecvHalf SendHalf Streams

/-- `frame::Stream::SIZE_BOUND`, which is also that of RESET_STREAM. -/
def streamSizeBound : Nat := 1 + 8 + 8 + 8

def stopSendingSizeBound : Nat := 1 + 8 + 8

inductive StreamsFrame
  | stream (frame : StreamFrame)
  | resetStream (id : StreamId) (errorCode finalOffset : Nat)
  | stopSending (id : StreamId) (errorCode : Nat)
  | maxData (limit : Nat)
  | maxStreamData (id : StreamId) (limit : Nat)
  | maxStreams (dir : Dir) (count : Nat)
  | streamsBlocked (dir : Dir) (limit : Nat)
deriving DecidableEq

/-- A packet under construction: the length of its buffer, the streams' state and
the frames in it. -/
structure Writer where
  len : Nat
  streams : StreamsState
  pending : Retransmits
  frames : List StreamsFrame
  /-- The loop that copies a range into a STREAM frame does not end. -/
  stuck : Bool

def writeResetStreams (maxSize : Nat) (w : Writer) : List (StreamId × Nat) → Writer
  | [] => { w with pending := { w.pending with resetStream := [] } }
  | (id, errorCode) :: rest =>
    if w.len + streamSizeBound < maxSize then
      match w.streams.send id with
      | some (some half) =>
        writeResetStreams maxSize
          { w with
            len := w.len + 1 + varIntSize id.toNat + varIntSize errorCode + varIntSize half.offset
            frames := w.frames ++ [.resetStream id errorCode half.offset] }
          rest
      | _ => writeResetStreams maxSize w rest
    else { w with pending := { w.pending with resetStream := ((id, errorCode) :: rest).reverse } }

def writeStopSending (maxSize : Nat) (w : Writer) : List (StreamId × Nat) → Writer
  | [] => { w with pending := { w.pending with stopSending := [] } }
  | (id, errorCode) :: rest =>
    if w.len + stopSendingSizeBound < maxSize then
      writeStopSending maxSize
        { w with
          len := w.len + 1 + varIntSize id.toNat + varIntSize errorCode
          frames := w.frames ++ [.stopSending id errorCode] }
        rest
    else { w with pending := { w.pending with stopSending := ((id, errorCode) :: rest).reverse } }

def writeMaxData (maxSize : Nat) (w : Writer) : Writer :=
  if w.pending.maxData && decide (w.len + 9 < maxSize) then
    let limit := w.streams.localMaxData.min varIntMax
    { w with
      len := w.len + 1 + varIntSize limit
      streams := { w.streams with sentMaxData := w.streams.sentMaxData.max limit }
      pending := { w.pending with maxData := false }
      frames := w.frames ++ [.maxData limit] }
  else w

def writeMaxStreamData (maxSize : Nat) (w : Writer) : List StreamId → Writer
  | [] => { w with pending := { w.pending with maxStreamData := [] } }
  | id :: rest =>
    if w.len + 17 < maxSize then
      match w.streams.recv id with
      | some (some (.opened recv)) =>
        if recv.canSendFlowControl then
          let (limit, _) := recv.maxStreamData w.streams.streamReceiveWindow
          writeMaxStreamData maxSize
            { w with
              len := w.len + 1 + varIntSize id.toNat + varIntSize limit
              streams := w.streams.setRecv id (recv.recordSentMaxStreamData limit)
              frames := w.frames ++ [.maxStreamData id limit] }
            rest
        else writeMaxStreamData maxSize w rest
      | _ => writeMaxStreamData maxSize w rest
    else { w with pending := { w.pending with maxStreamData := id :: rest } }

def writeMaxStreams (maxSize : Nat) (w : Writer) (dir : Dir) : Writer :=
  if w.pending.maxStreamId dir && decide (w.len + 9 < maxSize) then
    { w with
      len := w.len + 1 + varIntSize (w.streams.maxRemote dir)
      streams := { w.streams with
        sentMaxRemote := Function.update w.streams.sentMaxRemote dir (w.streams.maxRemote dir) }
      pending := { w.pending with
        maxStreamId := Function.update w.pending.maxStreamId dir false }
      frames := w.frames ++ [.maxStreams dir (w.streams.maxRemote dir)] }
  else w

def writeStreamsBlocked (maxSize : Nat) (w : Writer) (dir : Dir) : Writer :=
  let w :=
    if w.streams.streamsBlocked dir then
      { w with
        streams := { w.streams with
          streamsBlocked := Function.update w.streams.streamsBlocked dir false }
        pending := { w.pending with
          streamsBlocked := Function.update w.pending.streamsBlocked dir true } }
    else w
  if w.pending.streamsBlocked dir && decide (w.len + 9 < maxSize) then
    { w with
      len := w.len + 1 + varIntSize (w.streams.max dir)
      pending := { w.pending with
        streamsBlocked := Function.update w.pending.streamsBlocked dir false }
      frames := w.frames ++ [.streamsBlocked dir (w.streams.max dir)] }
  else w

def writeControlFrames (maxSize : Nat) (w : Writer) : Writer :=
  let w := writeResetStreams maxSize w w.pending.resetStream.reverse
  let w := writeStopSending maxSize w w.pending.stopSending.reverse
  let w := writeMaxData maxSize w
  let w := writeMaxStreamData maxSize w w.pending.maxStreamData
  let w := Dir.all.foldl (writeMaxStreams maxSize) w
  Dir.all.foldl (writeStreamsBlocked maxSize) w

def encodedLen (frame : StreamMeta) (length : Bool) : Nat :=
  1 + varIntSize frame.id.toNat + (if frame.start ≠ 0 then varIntSize frame.start else 0) +
    (if length then varIntSize (frame.stop - frame.start) else 0)

/-- Put a frame of the stream into the packet and queue the stream again if it
still has something to send. -/
def writeStreamFrame (maxSize : Nat) (fair : Bool) (w : Writer) (id : StreamId) (half : Send) :
    StreamMeta × Writer :=
  let ((start, stop), encodeLength, buffer) :=
    half.pending.pollTransmit (maxSize - w.len - 1 - varIntSize id.toNat)
  let dataSent :=
    match half.state with
    | .dataSent _ => true
    | .ready | .resetSent => false
  let fin := stop == buffer.offset && dataSent
  let half := { half with pending := buffer, finPending := half.finPending && !fin }
  let s := w.streams
  let s :=
    if half.isPending then
      { s with
        pending :=
          if fair then s.pending.pushPending id half.priority
          else s.pending.reinsertPending id half.priority }
    else s
  let frame : StreamMeta := ⟨id, start, stop, fin⟩
  let data := half.pending.copyRange (stop - start) start stop
  (frame, { w with
    len := w.len + encodedLen frame encodeLength + (stop - start)
    streams := s.setSend id half
    frames := w.frames ++ [.stream ⟨id, start, fin, data⟩]
    stuck := w.stuck || data.length != stop - start })

/-- `write_stream_frames`; each frame takes some of the packet, which `fuel`
exceeds, or drops a stream from the queue. -/
def writeStreamFrames (maxSize : Nat) (fair : Bool) (fuel : Nat) (w : Writer) :
    List StreamMeta × Writer :=
  match fuel with
  | 0 => ([], w)
  | fuel + 1 =>
    if w.len + streamSizeBound < maxSize then
      match w.streams.pending.pop with
      | none => ([], w)
      | some (p, queue) =>
        let w := { w with streams := { w.streams with pending := queue } }
        match w.streams.send p.id with
        | some (some half) =>
          if half.isReset then writeStreamFrames maxSize fair fuel w
          else
            let (frame, w) := writeStreamFrame maxSize fair w p.id half
            let (frames, w) := writeStreamFrames maxSize fair fuel w
            (frame :: frames, w)
        | _ => writeStreamFrames maxSize fair fuel w
    else ([], w)

end Quac.StreamTransmit
