import Quac.StreamAccess
import Quac.StreamTransmit
import Quac.Timers

/-!
A connection of `quic-proto`, as far as its life cycle, its streams, its events
and its timers go (`connection/mod.rs`).  Packet protection, recovery, congestion
control and path management are not part of the model: what they decide comes in
with the inputs of a call.
-/

namespace Quac.ProtoConnection

open Identifiers RecvHalf SendHalf Streams StreamAccess StreamTransmit Timers

inductive State
  | handshake
  | established
  | closed
  | draining
  | drained
deriving DecidableEq

def State.isClosed : State → Bool
  | .closed | .draining | .drained => true
  | .handshake | .established => false

inductive ConnectionError
  | versionMismatch
  | transportError (e : TransportError)
  | connectionClosed
  | applicationClosed
  | reset
  | timedOut

inductive Event
  | handshakeDataReady
  | connected
  | handshakeConfirmed
  | connectionLost (reason : ConnectionError)
  | stream (event : StreamEvent)
  | datagramReceived
  | datagramsUnblocked

inductive EndpointEvent
  | drained
  | resetToken
  | needIdentifiers (count : Nat)
  | retireConnectionId (sequence : Nat) (allowMoreCids : Bool)

/-- The part of `TransportConfig` that streams use. -/
structure TransportConfig where
  maxConcurrentUniStreams : Nat
  maxConcurrentBidiStreams : Nat
  sendWindow : Nat
  receiveWindow : Nat
  streamReceiveWindow : Nat
  sendFairness : Bool

structure Connection where
  config : TransportConfig
  state : State
  error : Option ConnectionError
  /-- A CONNECTION_CLOSE is to be sent. -/
  close : Bool
  events : List Event
  endpointEvents : List EndpointEvent
  timers : TimerTable
  streams : StreamsState
  /-- The frames queued in the data space. -/
  pending : Retransmits

/-- Acknowledgements and losses that an ACK frame or the loss timer reveals. -/
structure Recovered where
  resetsAcked : List StreamId
  acked : List StreamMeta
  lost : List StreamMeta
  lostResets : List (StreamId × Nat)
  lostMaxData : Bool
  datagramsUnblocked : Bool

/-- A frame, with what the unmodelled parts of the connection make of it. -/
inductive Frame
  | crypto (handshakeDataReady : Bool) (error : Option TransportError)
  | stream (frame : StreamFrame)
  | ack (outcome : Except TransportError Recovered)
  | close (application : Bool)
  | maxData (bytes : Nat)
  | maxStreamData (id : StreamId) (offset : Nat)
  | maxStreams (dir : Dir) (count : Nat)
  | resetStream (id : StreamId) (errorCode finalOffset : Nat)
  | streamDataBlocked (id : StreamId)
  | streamsBlocked (dir : Dir) (limit : Nat)
  | stopSending (id : StreamId) (errorCode : Nat)
  | retireConnectionId (sequence : Nat) (outcome : Except TransportError Bool)
  | datagram (received : Except TransportError Bool)
  /-- PING, PATH_CHALLENGE, NEW_CONNECTION_ID and the like. -/
  | other (error : Option TransportError)

inductive PacketKind
  | initial
  | handshake
  | zeroRtt
  | oneRtt
  | retry
  | versionNegotiate
deriving DecidableEq

structure Decrypted where
  kind : PacketKind
  payloadLen : Nat
  frames : List Frame
  /-- Why decoding the payload stops after `frames`. -/
  malformed : Option TransportError
  /-- Timers set because the packet was authenticated. -/
  authenticated : Rearm
  /-- Timers set while its frames are processed. -/
  processed : Rearm
  /-- The transport parameters that the handshake has just delivered. -/
  peerParams : Option (Except TransportError (StreamsState.PeerLimits × Nat))
  /-- The packet completes the handshake. -/
  handshakeComplete : Bool

inductive PacketInput
  /-- Dropped before it has any effect. -/
  | discarded
  | statelessReset
  /-- Decryption reports a violation of the protocol. -/
  | illegal (e : TransportError)
  /-- One forged packet more than the integrity limit admits. -/
  | integrityLimit
  | decrypted (packet : Decrypted)

/-- What is to be sent: the first `size` bytes of the buffer that it was written to. -/
structure Transmit where
  scratch : Bytes
  size : Nat

namespace Connection

def new (config : TransportConfig) : Connection where
  config
  state := .handshake
  error := none
  close := false
  events := []
  endpointEvents := []
  timers := .empty
  streams := .new .server config.maxConcurrentUniStreams config.maxConcurrentBidiStreams
    config.sendWindow config.receiveWindow config.streamReceiveWindow
  pending := .empty

def pollTimeout (c : Connection) : Option Instant :=
  c.timers.nextTimeout

def poll (c : Connection) : Option Event × Connection :=
  match c.events with
  | event :: events => (some event, { c with events })
  | [] =>
    match c.streams.poll with
    | (some event, streams) => (some (.stream event), { c with streams })
    | (none, streams) =>
      match c.error with
      | some reason => (some (.connectionLost reason), { c with streams, error := none })
      | none => (none, { c with streams })

def pollEndpointEvents (c : Connection) : Option EndpointEvent × Connection :=
  match c.endpointEvents with
  | event :: endpointEvents => (some event, { c with endpointEvents })
  | [] => (none, c)

/-- `Connection::handle_event`, of which only the timers are modelled. -/
def handleEvent (c : Connection) (rearm : Rearm) : Connection :=
  { c with timers := rearm.apply c.timers }

def closeCommon (c : Connection) : Connection :=
  { c with timers := .empty }

def setCloseTimer (c : Connection) (now : Instant) (pto : Nat) : Connection :=
  { c with timers := c.timers.set .close (now + 3 * pto) }

/-- `close_inner`, and `close` with it: the reason is not modelled. -/
def closeInner (c : Connection) (now : Instant) (pto : Nat) : Connection :=
  if c.state.isClosed then c
  else { c.closeCommon.setCloseTimer now pto with close := true, state := .closed }

def kill (c : Connection) (reason : ConnectionError) : Connection :=
  { c.closeCommon with
    error := some reason
    state := .drained
    endpointEvents := c.endpointEvents ++ [.drained] }

def recover (c : Connection) (r : Recovered) : Connection :=
  let s := r.resetsAcked.foldl StreamsState.resetAcked c.streams
  let s := r.acked.foldl StreamsState.receivedAckOf s
  let s := r.lost.foldl StreamsState.retransmit s
  { c with
    streams := s
    pending := { c.pending with
      maxData := c.pending.maxData || r.lostMaxData
      resetStream := c.pending.resetStream ++ r.lostResets }
    events := if r.datagramsUnblocked then c.events ++ [.datagramsUnblocked] else c.events }

/-- A frame of a 0-RTT or 1-RTT packet; a CONNECTION_CLOSE takes effect only when
all frames are processed. -/
def processFrame (zeroRtt : Bool) (payloadLen : Nat) (c : Connection) :
    Frame → Except TransportError Unit × Connection
  | .crypto handshakeDataReady error =>
    if zeroRtt then (.error ⟨.protocolViolation, "illegal frame type in 0-RTT"⟩, c)
    else
      match error with
      | some e => (.error e, c)
      | none =>
        (.ok (), { c with
          events := if handshakeDataReady then c.events ++ [.handshakeDataReady] else c.events })
  | .stream frame =>
    match c.streams.received frame payloadLen with
    | .error e => (.error e, c)
    | .ok (maxData, streams) =>
      (.ok (), { c with
        streams, pending := { c.pending with maxData := c.pending.maxData || maxData } })
  | .ack (.error e) => (.error e, c)
  | .ack (.ok recovered) => (.ok (), c.recover recovered)
  | .close application =>
    if zeroRtt && application then
      (.error ⟨.protocolViolation, "illegal frame type in 0-RTT"⟩, c)
    else (.ok (), c)
  | .maxData bytes => (.ok (), { c with streams := c.streams.receivedMaxData bytes })
  | .maxStreamData id offset =>
    match c.streams.receivedMaxStreamData id offset with
    | .error e => (.error e, c)
    | .ok streams => (.ok (), { c with streams })
  | .maxStreams dir count =>
    match c.streams.receivedMaxStreams dir count with
    | .error e => (.error e, c)
    | .ok streams => (.ok (), { c with streams })
  | .resetStream id errorCode finalOffset =>
    match c.streams.receivedReset id errorCode finalOffset with
    | .error e => (.error e, c)
    | .ok (maxData, streams) =>
      (.ok (), { c with
        streams, pending := { c.pending with maxData := c.pending.maxData || maxData } })
  | .streamDataBlocked id =>
    if id.initiator = c.streams.side ∧ id.dir = .uni then
      (.error ⟨.streamStateError, "STREAM_DATA_BLOCKED on send-only stream"⟩, c)
    else (.ok (), c)
  | .streamsBlocked _ limit =>
    if maxStreamCount < limit then
      (.error ⟨.frameEncodingError, "unrepresentable stream limit"⟩, c)
    else (.ok (), c)
  | .stopSending id errorCode =>
    if id.initiator ≠ c.streams.side ∧ id.dir = .uni then
      (.error ⟨.streamStateError, "STOP_SENDING on recv-only stream"⟩, c)
    else if id.initiator = c.streams.side ∧ c.streams.isLocalUnopened id then
      (.error ⟨.streamStateError, "STOP_SENDING on unopened stream"⟩, c)
    else (.ok (), { c with streams := c.streams.receivedStopSending id errorCode })
  | .retireConnectionId _ (.error e) => (.error e, c)
  | .retireConnectionId sequence (.ok allowMoreCids) =>
    (.ok (), { c with
      endpointEvents := c.endpointEvents ++ [.retireConnectionId sequence allowMoreCids] })
  | .datagram (.error e) => (.error e, c)
  | .datagram (.ok notify) =>
    (.ok (), { c with events := if notify then c.events ++ [.datagramReceived] else c.events })
  | .other (some e) => (.error e, c)
  | .other none => (.ok (), c)

def processFrames (zeroRtt : Bool) (payloadLen : Nat) (c : Connection) :
    List Frame → Except TransportError Unit × Connection
  | [] => (.ok (), c)
  | frame :: frames =>
    match c.processFrame zeroRtt payloadLen frame with
    | (.error e, c) => (.error e, c)
    | (.ok (), c) => c.processFrames zeroRtt payloadLen frames

/-- The last CONNECTION_CLOSE of a payload. -/
def closeReason (frames : List Frame) : Option ConnectionError :=
  frames.foldl
    (fun reason frame =>
      match frame with
      | .close application => some (if application then .applicationClosed else .connectionClosed)
      | _ => reason)
    none

def processPayload (c : Connection) (p : Decrypted) : Except TransportError Unit × Connection :=
  match c.processFrames (p.kind == .zeroRtt) p.payloadLen p.frames with
  | (.error e, c) => (.error e, c)
  | (.ok (), c) =>
    match p.malformed with
    | some e => (.error e, c)
    | none =>
      let c := { c with
        timers := p.processed.apply c.timers
        pending := c.streams.queueMaxStreamId c.pending }
      match closeReason p.frames with
      | some reason =>
        (.ok (), { c with error := some reason, state := .draining, close := true })
      | none => (.ok (), c)

/-- The frames of an Initial or Handshake packet; the result tells whether the
peer closed the connection. -/
def processEarlyFrames (c : Connection) : List Frame → Except TransportError Bool × Connection
  | [] => (.ok false, c)
  | .crypto _ (some e) :: _ => (.error e, c)
  | .crypto handshakeDataReady none :: frames =>
    processEarlyFrames
      { c with
        events := if handshakeDataReady then c.events ++ [.handshakeDataReady] else c.events }
      frames
  | .ack (.error e) :: _ => (.error e, c)
  | .ack (.ok recovered) :: frames => (c.recover recovered).processEarlyFrames frames
  | .other none :: frames => c.processEarlyFrames frames
  | .close application :: _ =>
    (.ok true, { c with
      error := some (if application then .applicationClosed else .connectionClosed)
      state := .draining })
  | _ :: _ => (.error ⟨.protocolViolation, "illegal frame type in handshake"⟩, c)

def processEarlyPayload (c : Connection) (p : Decrypted) :
    Except TransportError Unit × Connection :=
  match c.processEarlyFrames p.frames with
  | (.error e, c) => (.error e, c)
  | (.ok true, c) => (.ok (), c)
  | (.ok false, c) =>
    match p.malformed with
    | some e => (.error e, c)
    | none => (.ok (), { c with timers := p.processed.apply c.timers })

def isClose : Frame → Bool
  | .close _ => true
  | _ => false

def processDecryptedPacket (c : Connection) (p : Decrypted) :
    Except TransportError Unit × Connection :=
  match c.state with
  | .established =>
    match p.kind with
    | .zeroRtt | .oneRtt => c.processPayload p
    | .initial | .handshake => c.processEarlyPayload p
    | .retry | .versionNegotiate => (.ok (), c)
  | .closed =>
    if p.payloadLen = 0 then (.error ⟨.protocolViolation, "packet payload is empty"⟩, c)
    else if p.frames.any isClose then (.ok (), { c with state := .draining })
    else (.ok (), c)
  | .draining | .drained => (.ok (), c)
  | .handshake =>
    match p.kind with
    | .retry => (.error ⟨.protocolViolation, "client sent Retry"⟩, c)
    | .handshake =>
      match c.processEarlyPayload p with
      | (.error e, c) => (.error e, c)
      | (.ok (), c) =>
        if c.state.isClosed || !p.handshakeComplete then (.ok (), c)
        else
          (.ok (), { c with
            events := c.events ++ [.handshakeConfirmed, .connected]
            state := .established })
    | .initial =>
      match c.processEarlyPayload p with
      | (.error e, c) => (.error e, c)
      | (.ok (), c) =>
        match p.peerParams with
        | none => (.ok (), c)
        | some (.error e) => (.error e, c)
        | some (.ok (limits, newCids)) =>
          (.ok (), { c with
            streams := c.streams.setParams limits
            endpointEvents := c.endpointEvents ++ [.needIdentifiers newCids] })
    | .zeroRtt => c.processPayload p
    -- The client's first packet was authenticated before, so a version negotiation
    -- packet comes too late.
    | .oneRtt | .versionNegotiate => (.ok (), c)

/-- What `handle_packet` does up to the state transitions; `none` when it returns
early. -/
def decryptedResult (c : Connection) :
    PacketInput → Option (Except ConnectionError Unit × Connection)
  | .discarded => none
  | .statelessReset => some (.error .reset, c)
  | .illegal e => some (.error (.transportError e), c)
  | .integrityLimit =>
    some (.error (.transportError ⟨.aeadLimitReached, "integrity limit violated"⟩), c)
  | .decrypted p =>
    -- Short packets are dropped during the handshake.
    if c.state = .handshake ∧ p.kind = .oneRtt then none
    else
      let c := if c.state.isClosed then c else { c with timers := p.authenticated.apply c.timers }
      match c.processDecryptedPacket p with
      | (.ok (), c) => some (.ok (), c)
      | (.error e, c) => some (.error (.transportError e), c)

/-- The state that an error of packet processing leads to. -/
def errorState : ConnectionError → State
  | .reset => .drained
  | .transportError e => if e.code = .aeadLimitReached then .drained else .closed
  | .versionMismatch => .draining
  | .applicationClosed | .connectionClosed | .timedOut => .closed

/-- `handle_packet`; `pto` is the probe timeout when the packet is handled, and
`samePath` whether it came from the peer's current address. -/
def handlePacket (c : Connection) (now : Instant) (pto : Nat) (samePath : Bool)
    (input : PacketInput) : Connection :=
  match c.decryptedResult input with
  | none => c
  | some (result, c') =>
    let c' :=
      match result with
      | .ok () => c'
      | .error e => { c' with error := some e, state := errorState e }
    let c' :=
      if !c.state.isClosed && c'.state.isClosed then
        if c'.state = .drained then c'.closeCommon else c'.closeCommon.setCloseTimer now pto
      else c'
    let c' :=
      if c.state ≠ .drained ∧ c'.state = .drained then
        { c' with
          endpointEvents := c'.endpointEvents ++ [.drained]
          timers := c'.timers.stop .close }
      else c'
    if c'.state = .closed then { c' with close := samePath } else c'

structure Datagram where
  now : Instant
  pto : Nat
  samePath : Bool
  packets : List PacketInput
  /-- Timers set once all packets are handled. -/
  handled : Rearm

def handleDatagram (c : Connection) (d : Datagram) : Connection :=
  let c := d.packets.foldl (fun c p => c.handlePacket d.now d.pto d.samePath p) c
  { c with timers := d.handled.apply c.timers }

/-- `handle_first_packet`, with the packets coalesced behind it. -/
def handleFirstPacket (c : Connection) (first : Decrypted) (rest : Datagram) :
    Except TransportError Connection :=
  match processDecryptedPacket { c with timers := first.authenticated.apply c.timers } first with
  | (.error e, _) => .error e
  | (.ok (), c) => .ok (c.handleDatagram rest)

/-- What the unmodelled parts decide while timers are handled. -/
structure TimeoutInput where
  lossDetection : Recovered × Rearm
  newCids : Nat

def handleTimer (now : Instant) (input : TimeoutInput) (c : Connection) (timer : Timer) :
    Connection :=
  if c.timers.isExpired timer now then
    let c := { c with timers := c.timers.stop timer }
    match timer with
    | .close =>
      { c with state := .drained, endpointEvents := c.endpointEvents ++ [.drained] }
    | .idle => c.kill .timedOut
    | .lossDetection =>
      let c := c.recover input.lossDetection.1
      { c with timers := input.lossDetection.2.apply c.timers }
    | .pushNewCid =>
      if c.state.isClosed then c
      else { c with endpointEvents := c.endpointEvents ++ [.needIdentifiers input.newCids] }
    | .keepAlive | .keyDiscard | .pathValidation | .pacing | .maxAckDelay => c
  else c

def handleTimeout (c : Connection) (now : Instant) (input : TimeoutInput) : Connection :=
  Timer.values.foldl (handleTimer now input) c

/-- An iteration of the loop of `poll_transmit` that gets past the checks for
something to send. -/
inductive TransmitStep
  /-- A packet is built; `window` is where its buffer stands and ends when stream
  frames go into it, `last` whether it is the close packet of the highest space. -/
  | packet (window : Option (Nat × Nat)) (last : Bool) (datagramsUnblocked : Bool) (rearm : Rearm)
  /-- The next datagram has to wait. -/
  | pacing (delay : Instant)
  /-- The packet is the last one the confidentiality limit admits. -/
  | confidentialityClose (pto : Nat)
  /-- The packet exceeds the confidentiality limit. -/
  | confidentialityKill

structure TransmitInput where
  now : Instant
  /-- A PATH_CHALLENGE for the previous path is sent instead of all else. -/
  pathChallenge : Bool
  steps : List TransmitStep
  /-- Path MTU discovery has a probe to send. -/
  probe : Option Rearm
  transmit : Transmit

/-- The part of `populate_packet` that concerns streams. -/
def populatePacket (c : Connection) (window : Nat × Nat) (datagramsUnblocked : Bool) : Connection :=
  let w := writeControlFrames window.2 ⟨window.1, c.streams, c.pending, [], false⟩
  let fuel := window.2 + w.streams.pending.streams.length + 1
  let (_, w) := writeStreamFrames window.2 c.config.sendFairness fuel w
  { c with
    streams := w.streams
    pending := w.pending
    events := if datagramsUnblocked then c.events ++ [.datagramsUnblocked] else c.events }

/-- The loop of `poll_transmit`; the result tells whether there is a datagram to
send. -/
def transmitLoop (now : Instant) (closing : Bool) (c : Connection) (sent : Bool) :
    List TransmitStep → Bool × Connection
  | [] => (sent, c)
  | .pacing delay :: _ => (sent, { c with timers := c.timers.set .pacing delay })
  | .confidentialityKill :: _ =>
    (false, c.kill (.transportError ⟨.aeadLimitReached, "confidentiality limit reached"⟩))
  | .confidentialityClose pto :: steps =>
    transmitLoop now closing (c.closeInner now pto) sent steps
  | .packet window last datagramsUnblocked rearm :: steps =>
    if closing then
      let c := { c with timers := rearm.apply c.timers }
      if last then (true, { c with close := false })
      else transmitLoop now closing c true steps
    else
      let c :=
        match window with
        | some window => c.populatePacket window datagramsUnblocked
        | none => c
      transmitLoop now closing { c with timers := rearm.apply c.timers } true steps

def pollTransmit (c : Connection) (input : TransmitInput) : Option Transmit × Connection :=
  if input.pathChallenge then (some input.transmit, c)
  else if c.state = .drained ∨ (c.state.isClosed ∧ c.close = false) then (none, c)
  else
    let (sent, c) := transmitLoop input.now c.state.isClosed c false input.steps
    if sent then (some input.transmit, c)
    else
      match input.probe with
      | some rearm =>
        if c.state = .established then
          (some input.transmit, { c with timers := rearm.apply c.timers })
        else (none, c)
      | none => (none, c)

end Connection

end Quac.ProtoConnection
