import Quac.Lib.Faults
import Quac.Lib.Transition
import Quac.StreamAccess
import Quac.StreamTransmit

/-!
The streams of one side of a connection, with the frames queued for them: what its
user calls, what the frames of its peer do, and what becomes of its own frames.
The connection is open all the time.
-/

namespace Quac.StreamParty

open Identifiers Lib.Faults Lib.Transition Reassembly RecvHalf SendHalf StreamAccess
open StreamTransmit Streams

structure Party where
  streams : StreamsState
  pending : Retransmits

/-- What the user of a connection can do to its streams. -/
inductive Call
  | openStream (dir : Dir)
  | acceptStream (dir : Dir)
  | write (id : StreamId) (data : Bytes)
  | finish (id : StreamId)
  | reset (id : StreamId) (errorCode : Nat)
  | read (id : StreamId) (maxLengths : List Nat)
  | stop (id : StreamId) (errorCode : Nat)
  | poll
  | setReceiveWindow (receiveWindow : Nat)
  | setSendWindow (sendWindow : Nat)
  | setMaxConcurrentStreams (dir : Dir) (count : Nat)
deriving DecidableEq

inductive Reply
  | opened (id : Option StreamId)
  | accepted (id : Option StreamId)
  | wrote (result : Except WriteError Nat)
  | finished (result : Except FinishError Unit)
  | reset (known : Bool)
  | read (results : List (Except ReadError (Option Chunk)))
  | stopped (known : Bool)
  | polled (event : Option StreamEvent)
  | set

/-- What a STREAM frame leaves behind at its sender. -/
def streamMeta (frame : StreamFrame) : StreamMeta :=
  ⟨frame.id, frame.offset, frame.offset + frame.data.length, frame.fin⟩

/-- A packet to fill: where its buffer stands and ends, whether streams take turns,
and the order in which the set of streams with a new limit is listed. -/
structure PacketSpace where
  len : Nat
  maxSize : Nat
  fair : Bool
  limits : List StreamId
deriving DecidableEq

namespace Party

/-- The streams of a connection whose handshake is done. -/
def new (side : Side)
    (maxRemoteUni maxRemoteBi sendWindow receiveWindow streamReceiveWindow : Nat)
    (params : StreamsState.PeerLimits) : Party where
  streams := (StreamsState.new side maxRemoteUni maxRemoteBi sendWindow receiveWindow
    streamReceiveWindow).setParams params
  pending := .empty

def call (p : Party) : Call → Reply × Party
  | .openStream dir =>
    let (id, streams) := openStream p.streams false dir
    (.opened id, { p with streams })
  | .acceptStream dir =>
    let (id, streams) := acceptStream p.streams dir
    (.accepted id, { p with streams })
  | .write id data =>
    let (result, streams) := writeStream p.streams false id data
    (.wrote result, { p with streams })
  | .finish id =>
    let (result, streams) := finishStream p.streams id
    (.finished result, { p with streams })
  | .reset id errorCode =>
    let (known, streams, pending) := resetStream p.streams p.pending id errorCode
    (.reset known, ⟨streams, pending⟩)
  | .read id maxLengths =>
    let (results, streams, pending) := readStream p.streams p.pending id maxLengths
    (.read results, ⟨streams, pending⟩)
  | .stop id errorCode =>
    let (known, streams, pending) := stopStream p.streams p.pending id errorCode
    (.stopped known, ⟨streams, pending⟩)
  | .poll =>
    let (event, streams) := p.streams.poll
    (.polled event, { p with streams })
  | .setReceiveWindow receiveWindow =>
    let (expanded, streams) := p.streams.setReceiveWindow receiveWindow
    (.set, ⟨streams, { p.pending with maxData := p.pending.maxData || expanded }⟩)
  | .setSendWindow sendWindow => (.set, { p with streams := p.streams.setSendWindow sendWindow })
  | .setMaxConcurrentStreams dir count =>
    let streams := p.streams.setMaxConcurrent dir count
    (.set, ⟨streams, streams.queueMaxStreamId p.pending⟩)

/-- The arms of `process_payload` for the frames of streams. -/
def processFrame (p : Party) (payloadLen : Nat) : StreamsFrame → Except TransportError Party
  | .stream frame => do
    let (maxData, streams) ← p.streams.received frame payloadLen
    return ⟨streams, { p.pending with maxData := p.pending.maxData || maxData }⟩
  | .resetStream id errorCode finalOffset => do
    let (maxData, streams) ← p.streams.receivedReset id errorCode finalOffset
    return ⟨streams, { p.pending with maxData := p.pending.maxData || maxData }⟩
  | .stopSending id errorCode =>
    if id.initiator ≠ p.streams.side ∧ id.dir = .uni then
      .error ⟨.streamStateError, "STOP_SENDING on recv-only stream"⟩
    else if id.initiator = p.streams.side ∧ p.streams.isLocalUnopened id then
      .error ⟨.streamStateError, "STOP_SENDING on unopened stream"⟩
    else .ok { p with streams := p.streams.receivedStopSending id errorCode }
  | .maxData limit => .ok { p with streams := p.streams.receivedMaxData limit }
  | .maxStreamData id limit => do
    let streams ← p.streams.receivedMaxStreamData id limit
    return { p with streams }
  | .maxStreams dir count => do
    let streams ← p.streams.receivedMaxStreams dir count
    return { p with streams }
  | .streamsBlocked _ limit =>
    if maxStreamCount < limit then
      .error ⟨.frameEncodingError, "unrepresentable stream limit"⟩
    else .ok p

/-- A frame arrives, and credit is issued for the streams it closed. -/
def receive (p : Party) (payloadLen : Nat) (frame : StreamsFrame) :
    Except TransportError Party := do
  let p ← p.processFrame payloadLen frame
  return { p with pending := p.streams.queueMaxStreamId p.pending }

/-- Fill a packet with frames; `none` when this never ends. -/
def transmit (p : Party) (space : PacketSpace) : Option (List StreamsFrame × Party) :=
  let w := writeControlFrames space.maxSize
    ⟨space.len, p.streams, { p.pending with maxStreamData := space.limits }, [], false⟩
  let fuel := space.maxSize + w.streams.pending.streams.length + 1
  let (_, w) := writeStreamFrames space.maxSize space.fair fuel w
  if w.stuck then none else some (w.frames, ⟨w.streams, w.pending⟩)

/-- The peer acknowledges a packet with this frame in it. -/
def acked (p : Party) : StreamsFrame → Party
  | .stream frame => { p with streams := p.streams.receivedAckOf (streamMeta frame) }
  | .resetStream id _ _ => { p with streams := p.streams.resetAcked id }
  | .stopSending _ _ | .maxData _ | .maxStreamData _ _ | .maxStreams _ _ | .streamsBlocked _ _ => p

/-- A packet with this frame in it is lost: what it said is queued again. -/
def lost (p : Party) : StreamsFrame → Party
  | .stream frame => { p with streams := p.streams.retransmit (streamMeta frame) }
  | .resetStream id errorCode _ =>
    { p with pending := { p.pending with
        resetStream := p.pending.resetStream ++ [(id, errorCode)] } }
  | .stopSending id errorCode =>
    { p with pending := { p.pending with
        stopSending := p.pending.stopSending ++ [(id, errorCode)] } }
  | .maxData _ => { p with pending := { p.pending with maxData := true } }
  | .maxStreamData id _ =>
    { p with pending := { p.pending with
        maxStreamData := p.pending.maxStreamData.insert id } }
  | .maxStreams dir _ =>
    { p with pending := { p.pending with
        maxStreamId := Function.update p.pending.maxStreamId dir true } }
  | .streamsBlocked dir _ =>
    { p with pending := { p.pending with
        streamsBlocked := Function.update p.pending.streamsBlocked dir true } }

end Party

/-- What an accepted frame does to the streams. -/
inductive Accepts (s : StreamsState) (payloadLen : Nat) : StreamsFrame → StreamsState → Prop
  | stream (frame : StreamFrame) {r : Bool × StreamsState}
      (h : s.received frame payloadLen = .ok r) : Accepts s payloadLen (.stream frame) r.2
  | resetStream (id : StreamId) (errorCode finalOffset : Nat) {r : Bool × StreamsState}
      (h : s.receivedReset id errorCode finalOffset = .ok r) :
      Accepts s payloadLen (.resetStream id errorCode finalOffset) r.2
  | stopSending (id : StreamId) (errorCode : Nat) :
      Accepts s payloadLen (.stopSending id errorCode) (s.receivedStopSending id errorCode)
  | maxData (limit : Nat) : Accepts s payloadLen (.maxData limit) (s.receivedMaxData limit)
  | maxStreamData (id : StreamId) (limit : Nat) {s' : StreamsState}
      (h : s.receivedMaxStreamData id limit = .ok s') :
      Accepts s payloadLen (.maxStreamData id limit) s'
  | maxStreams (dir : Dir) (count : Nat) {s' : StreamsState}
      (h : s.receivedMaxStreams dir count = .ok s') :
      Accepts s payloadLen (.maxStreams dir count) s'
  | streamsBlocked (dir : Dir) (limit : Nat) : Accepts s payloadLen (.streamsBlocked dir limit) s

theorem Party.receive_accepts {p p' : Party} {payloadLen : Nat} {frame : StreamsFrame}
    (h : p.receive payloadLen frame = .ok p') : Accepts p.streams payloadLen frame p'.streams ∧
      ∃ maxData maxStreamId, p'.pending = { p.pending with maxData, maxStreamId } := by
  obtain ⟨t, hprocess, h⟩ := bind_eq_ok h
  cases h
  cases frame with
  | stream frame =>
    obtain ⟨r, hr, h⟩ := bind_eq_ok hprocess
    cases h
    exact ⟨.stream frame hr, _, _, rfl⟩
  | resetStream id errorCode finalOffset =>
    obtain ⟨r, hr, h⟩ := bind_eq_ok hprocess
    cases h
    exact ⟨.resetStream id errorCode finalOffset hr, _, _, rfl⟩
  | stopSending id errorCode =>
    simp only [Party.processFrame] at hprocess
    split_ifs at hprocess
    cases hprocess
    exact ⟨.stopSending id errorCode, _, _, rfl⟩
  | maxData limit =>
    cases hprocess
    exact ⟨.maxData limit, _, _, rfl⟩
  | maxStreamData id limit =>
    obtain ⟨streams, hr, h⟩ := bind_eq_ok hprocess
    cases h
    exact ⟨.maxStreamData id limit hr, _, _, rfl⟩
  | maxStreams dir count =>
    obtain ⟨_, hr, h⟩ := bind_eq_ok hprocess
    cases h
    exact ⟨.maxStreams dir count hr, _, _, rfl⟩
  | streamsBlocked dir limit =>
    simp only [Party.processFrame] at hprocess
    split_ifs at hprocess
    cases hprocess
    exact ⟨.streamsBlocked dir limit, _, _, rfl⟩

/-- One side of a connection, and the frames it has sent. -/
structure State where
  party : Party
  sent : List StreamsFrame

inductive Move
  | call (c : Call)
  | receive (payloadLen : Nat) (frame : StreamsFrame)
  | transmit (space : PacketSpace)
  | acked (frame : StreamsFrame)
  | lost (frame : StreamsFrame)

/-- A frame that is refused closes the connection, so that there is no step for it;
only frames that were sent are acknowledged or lost. -/
def step (s : State) : Move → Option State
  | .call c => some { s with party := (s.party.call c).2 }
  | .receive payloadLen frame =>
    match s.party.receive payloadLen frame with
    | .ok party => some { s with party }
    | .error _ => none
  | .transmit space =>
    if space.limits.isPerm s.party.pending.maxStreamData then
      (s.party.transmit space).map fun (frames, party) => ⟨party, s.sent ++ frames⟩
    else none
  | .acked frame => if frame ∈ s.sent then some { s with party := s.party.acked frame } else none
  | .lost frame => if frame ∈ s.sent then some { s with party := s.party.lost frame } else none

/-- One side of a connection, whatever its peer does. -/
def system : System State Move where
  initial s := ∃ side maxRemoteUni maxRemoteBi sendWindow receiveWindow streamReceiveWindow params,
    s = ⟨.new side maxRemoteUni maxRemoteBi sendWindow receiveWindow streamReceiveWindow params, []⟩
  step := step

/-- A server that admits one stream of each direction. -/
def server : State :=
  ⟨.new .server 1 1 100 100 100 ⟨100, 100, 100, 1, 1, 100⟩, []⟩

end Quac.StreamParty
