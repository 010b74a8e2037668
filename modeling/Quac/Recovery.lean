import Quac.PacketSpaces
import Quac.Lib.Transition

/-!
What a connection keeps of the packets it has sent: its paths with what is in
flight on them, the packets tracked in each space, and every way in which a packet
starts and stops being tracked.  Streams, congestion control and the contents of
packets are left out; what they decide comes with the events.
-/

namespace Quac.Recovery

open Identifiers Lib.Transition PacketSpaces

structure InFlight where
  /-- Sum of the sizes of the packets in flight. -/
  bytes : Nat
  /-- Number of the packets in flight that elicit acknowledgements. -/
  ackEliciting : Nat

namespace InFlight

def new : InFlight :=
  ⟨0, 0⟩

def insert (f : InFlight) (packet : SentPacket) : InFlight :=
  ⟨f.bytes + packet.size, f.ackEliciting + packet.ackEliciting.toNat⟩

def remove (f : InFlight) (packet : SentPacket) : Except Fault InFlight :=
  if packet.size ≤ f.bytes ∧ packet.ackEliciting.toNat ≤ f.ackEliciting then
    .ok ⟨f.bytes - packet.size, f.ackEliciting - packet.ackEliciting.toNat⟩
  else .error .underflow

end InFlight

structure PathData where
  /-- Tells the paths of a connection apart. -/
  generation : Nat
  inFlight : InFlight
  /-- The token of the PATH_CHALLENGE that was not answered yet. -/
  challenge : Option Nat
  challengePending : Bool
  /-- Packet number of the MTU probe in flight, if any. -/
  inFlightMtuProbe : Option Nat

namespace PathData

/-- `PathData::new`, without congestion control, RTT and MTU. -/
def new (generation : Nat) : PathData where
  generation := generation
  inFlight := .new
  challenge := none
  challengePending := false
  inFlightMtuProbe := none

/-- `PathData::from_previous`: MTU discovery goes on where it was. -/
def fromPrevious (prev : PathData) (generation : Nat) : PathData :=
  { new generation with inFlightMtuProbe := prev.inFlightMtuProbe }

/-- Whether the packet was sent on this path, and the path without it. -/
def removeInFlight (path : PathData) (packet : SentPacket) : Except Fault (Bool × PathData) :=
  if packet.pathGeneration ≠ path.generation then .ok (false, path)
  else do
    let inFlight ← path.inFlight.remove packet
    .ok (true, { path with inFlight })

def sent (path : PathData) (pn : Nat) (packet : SentPacket) (space : PacketSpace) :
    Except Fault (PathData × PacketSpace) := do
  let path := { path with inFlight := path.inFlight.insert packet }
  let (forgotten, space) ← space.sent pn packet
  match forgotten with
  | none => .ok (path, space)
  | some forgotten => do
    let (_, path) ← path.removeInFlight forgotten
    .ok (path, space)

end PathData

/-- The state of the connection; `closed` stands for closed, draining and drained. -/
inductive State
  | handshake
  | established
  | closed
deriving DecidableEq

structure Connection where
  side : Side
  /-- Whether a server lets its client migrate. -/
  migration : Bool
  packetThreshold : Nat
  state : State
  spaces : SpaceId → PacketSpace
  highestSpace : SpaceId
  /-- Whether there are 0-RTT keys. -/
  zeroRttCrypto : Bool
  path : PathData
  prevPath : Option PathData
  /-- The generation of the newest path; the path may have been given up since. -/
  pathCounter : Nat
  packetNumberFilter : PacketNumberFilter

namespace Connection

def new (side : Side) (migration : Bool) (packetThreshold : Nat) (zeroRttCrypto : Bool)
    (packetNumberFilter : PacketNumberFilter) : Connection where
  side := side
  migration := migration
  packetThreshold := packetThreshold
  state := .handshake
  spaces
    | .initial => { PacketSpace.new with crypto := true }
    | _ => .new
  highestSpace := .initial
  zeroRttCrypto := zeroRttCrypto
  path := .new 0
  prevPath := none
  pathCounter := 0
  packetNumberFilter := packetNumberFilter

def setSpace (c : Connection) (id : SpaceId) (space : PacketSpace) : Connection :=
  { c with spaces := Function.update c.spaces id space }

/-- Updates the counters for a packet that was acknowledged, lost or abandoned: of the
path the packet was sent on, if it is still known. -/
def removeInFlight (c : Connection) (packet : SentPacket) : Except Fault Connection := do
  let (found, path) ← c.path.removeInFlight packet
  if found then .ok { c with path }
  else
    match c.prevPath with
    | none => .ok c
    | some prev => do
      let (_, prev) ← prev.removeInFlight packet
      .ok { c with prevPath := some prev }

/-- `mem::take` of the packets sent in a space, each removed from the counters. -/
def abandonAll (c : Connection) (id : SpaceId) : Except Fault Connection :=
  (c.spaces id).sentPackets.values.foldlM removeInFlight
    (c.setSpace id { c.spaces id with sentPackets := .empty })

def discardSpace (c : Connection) (id : SpaceId) : Except Fault Connection :=
  (c.setSpace id { c.spaces id with crypto := false }).abandonAll id

/-- `Connection::can_send_1rtt`; `data` tells whether streams, path responses or
application datagrams are ready. -/
def canSend1rtt (c : Connection) (data : Bool) : Bool :=
  data || c.path.challengePending || c.prevPath.any (·.challengePending)

def hasKeys (c : Connection) (id : SpaceId) : Bool :=
  (c.spaces id).crypto || (id = .data && c.zeroRttCrypto && c.side = .client)

/-- `PacketBuilder::new`: the number of the next packet. -/
def newPacket (c : Connection) (id : SpaceId) (random : Nat) : Except Fault (Nat × Connection) :=
  match id with
  | .data => do
    let (number, filter, space) ← c.packetNumberFilter.allocate random (c.spaces .data)
    .ok (number, { c.setSpace .data space with packetNumberFilter := filter })
  | id => do
    let (number, space) ← (c.spaces id).getTxNumber
    .ok (number, c.setSpace id space)

def finishAndTrack (c : Connection) (now : Instant) (id : SpaceId) (number : Nat)
    (ackEliciting padded : Bool) (length : Nat) : Except Fault Connection := do
  let packet : SentPacket :=
    { pathGeneration := c.path.generation
      timeSent := now
      size := if padded || ackEliciting then length % 2 ^ 16 else 0
      ackEliciting := ackEliciting }
  let (path, space) ← c.path.sent number packet (c.spaces id)
  .ok { c.setSpace id space with path }

/-- A client that sends its first Handshake packet is done with the Initial space. -/
def leaveInitial (c : Connection) (id : SpaceId) : Except Fault Connection :=
  if (c.spaces .initial).crypto && id = .handshake && c.side = .client then
    c.discardSpace .initial
  else .ok c

end Connection

structure Outgoing where
  now : Instant
  space : SpaceId
  /-- Acknowledgements of the space are due. -/
  acks : Bool
  /-- Frames, a PING or an IMMEDIATE_ACK are pending in the space. -/
  pending : Bool
  /-- Streams, path responses or application datagrams are ready. -/
  data : Bool
  /-- The packet is spent on a PATH_RESPONSE to another address. -/
  offPath : Bool
  /-- There is room for a PATH_CHALLENGE after the frames that go first. -/
  room : Bool
  padded : Bool
  length : Nat
  random : Nat

namespace Connection

/-- The step of the loop in `poll_transmit` that sends one packet. -/
def transmitPacket (c : Connection) (out : Outgoing) : Except Fault Connection :=
  let ackEliciting := out.pending || (out.space = .data && c.canSend1rtt out.data)
  if c.state ≠ .closed ∧ c.hasKeys out.space ∧ (out.acks || ackEliciting) then do
    let c ← c.leaveInitial out.space
    let (number, c) ← c.newPacket out.space out.random
    -- PATH_CHALLENGE goes with every packet on an unvalidated path.
    let c :=
      if out.space = .data ∧ ¬ (out.offPath ∧ out.data) ∧ out.room ∧ c.path.challenge.isSome then
        { c with path := { c.path with challengePending := false } }
      else c
    c.finishAndTrack out.now out.space number ackEliciting out.padded out.length
  else .ok c

/-- The packet with CONNECTION_CLOSE is not tracked. -/
def closePacket (c : Connection) (id : SpaceId) (random : Nat) : Except Fault Connection :=
  if c.state = .closed ∧ c.hasKeys id then do
    let c ← c.leaveInitial id
    let (_, c) ← c.newPacket id random
    .ok c
  else .ok c

def mtuProbe (c : Connection) (now : Instant) (length random : Nat) : Except Fault Connection :=
  if c.state = .established ∧ (c.spaces .data).crypto ∧ c.path.inFlightMtuProbe = none then do
    let probe := c.packetNumberFilter.peek (c.spaces .data)
    let c := { c with path := { c.path with inFlightMtuProbe := some probe } }
    let (number, c) ← c.newPacket .data random
    c.finishAndTrack now .data number true true length
  else .ok c

/-- `Connection::send_path_challenge`: a PATH_CHALLENGE to the previous path, in a packet
that is not tracked. -/
def sendPathChallenge (c : Connection) (random : Nat) : Except Fault Connection :=
  match c.prevPath with
  | none => .ok c
  | some prev =>
    if prev.challengePending then do
      let c := { c with prevPath := some { prev with challengePending := false } }
      let (_, c) ← c.newPacket .data random
      .ok c
    else .ok c

def losePacket (id : SpaceId) (c : Connection) (packet : Nat) : Except Fault Connection := do
  let (info, space) ← (c.spaces id).take packet
  match info with
  | none => .error .panic
  | some info => (c.setSpace id space).removeInFlight info

/-- `Connection::detect_lost_packets`; `blackHole` is what the detector of black holes
finds. -/
def detectLostPackets (c : Connection) (now : Instant) (id : SpaceId) (lossDelay : Nat)
    (blackHole : Bool) : Except Fault Connection :=
  match (c.spaces id).largestAckedPacket with
  | none => .error .panic
  | some largest => do
    let probe := c.path.inFlightMtuProbe
    let scanned := (c.spaces id).sentPackets.entries.filter fun (packet, info) =>
      packet < largest ∧ (lossDelay ≤ now - info.timeSent ∨ packet + c.packetThreshold ≤ largest)
    let lostPackets := (scanned.map (·.1)).filter fun packet => some packet ≠ probe
    let lostMtuProbe := probe.filter fun packet => packet ∈ scanned.map (·.1)
    let c ← lostPackets.foldlM (losePacket id) c
    let c :=
      if lostPackets ≠ [] ∧ blackHole then
        { c with path := { c.path with inFlightMtuProbe := none } }
      else c
    match lostMtuProbe with
    | none => .ok c
    | some packet => do
      -- Probes are looked for among the packets of Data, whatever the space.
      let c ← losePacket .data c packet
      .ok { c with path := { c.path with inFlightMtuProbe := none } }

/-- The removal of one newly acknowledged packet, with `on_packet_acked`. -/
def ackPacket (id : SpaceId) (c : Connection) (packet : Nat) : Except Fault Connection := do
  let (info, space) ← (c.spaces id).take packet
  let c := c.setSpace id space
  match info with
  | none => .ok c
  | some info =>
    let c :=
      if id = .data ∧ c.path.inFlightMtuProbe = some packet then
        { c with path := { c.path with inFlightMtuProbe := none } }
      else c
    c.removeInFlight info

end Connection

structure Ack where
  largest : Nat
  /-- The ranges acknowledged, with both ends. -/
  ranges : List (Nat × Nat)
  lossDelay : Nat
  blackHole : Bool
deriving DecidableEq

/-- The frames of a received packet, as far as sent packets depend on them. -/
inductive Frame
  | padding
  | ack (ack : Ack)
  | pathResponse (token : Nat)
  /-- PATH_CHALLENGE or NEW_CONNECTION_ID. -/
  | probing
  | handshakeDone
  | close
  /-- Any other frame, and whether the connection fails on it. -/
  | other (fails : Bool)
deriving DecidableEq

def Frame.isProbing : Frame → Bool
  | .padding | .pathResponse _ | .probing => true
  | _ => false

inductive PacketKind
  | initial
  | handshake
  | zeroRtt
  | short
deriving DecidableEq

def PacketKind.space : PacketKind → SpaceId
  | .initial => .initial
  | .handshake => .handshake
  | .zeroRtt | .short => .data

structure Incoming where
  now : Instant
  kind : PacketKind
  number : Nat
  frames : List Frame
  /-- The datagram did not come from the address of the current path. -/
  otherRemote : Bool
  /-- A migration changes the port only. -/
  sameIp : Bool
  /-- The token of the PATH_CHALLENGE for the new path, and the one for the old path. -/
  tokens : Nat × Nat
  /-- The token of an Initial is not the one that the server expects. -/
  badToken : Bool
  /-- The source CID is not the one of the handshake. -/
  mismatched : Bool
  /-- How many keys the TLS session hands out. -/
  secrets : Nat
  /-- The TLS handshake is complete. -/
  complete : Bool
  zeroRttRejected : Bool
  /-- The TLS session has keys for 0-RTT. -/
  earlyCrypto : Bool

namespace Connection

/-- `Connection::on_ack_received`; `false` if the connection fails on the frame. -/
def onAckReceived (c : Connection) (now : Instant) (id : SpaceId) (ack : Ack) :
    Except Fault (Connection × Bool) :=
  if (c.spaces id).nextPacketNumber ≤ ack.largest then .ok (c, false)
  else
    let c :=
      if (c.spaces id).largestAckedPacket.all (· < ack.largest) then
        c.setSpace id { c.spaces id with largestAckedPacket := some ack.largest }
      else c
    if ack.ranges.all (c.packetNumberFilter.checkAck id) then
      let newlyAcked := ((c.spaces id).sentPackets.entries.map (·.1)).filter fun packet =>
        ack.ranges.any fun range => range.1 ≤ packet ∧ packet ≤ range.2
      if newlyAcked = [] then .ok (c, true)
      else do
        let c ← newlyAcked.foldlM (ackPacket id) c
        let c ← c.detectLostPackets now id ack.lossDelay ack.blackHole
        .ok (c, true)
    else .ok (c, false)

def processFrame (c : Connection) (p : Incoming) : Frame → Except Fault (Connection × Bool)
  | .padding | .probing | .close => .ok (c, true)
  | .ack ack => c.onAckReceived p.now .data ack
  | .pathResponse token =>
    if c.path.challenge = some token ∧ ¬ p.otherRemote then
      let prevPath := c.prevPath.map fun prev =>
        { prev with challenge := none, challengePending := false }
      .ok ({ c with path := { c.path with challenge := none }, prevPath }, true)
    else .ok (c, true)
  | .handshakeDone =>
    if c.side = .server then .ok (c, false)
    else if (c.spaces .handshake).crypto then do
      let c ← c.discardSpace .handshake
      .ok (c, true)
    else .ok (c, true)
  | .other fails => .ok (c, !fails)

def processFrames (c : Connection) (p : Incoming) : List Frame → Except Fault (Connection × Bool)
  | [] => .ok (c, true)
  | frame :: frames => do
    let (c, ok) ← c.processFrame p frame
    if ok then c.processFrames p frames else .ok (c, false)

def migrate (c : Connection) (p : Incoming) : Connection :=
  let pathCounter := (c.pathCounter + 1) % 2 ^ 64
  let path :=
    if p.sameIp then c.path.fromPrevious pathCounter else PathData.new pathCounter
  { c with
    pathCounter
    path := { path with challenge := some p.tokens.1, challengePending := true }
    -- The original path is not given up for one that was not validated.
    prevPath :=
      if c.path.challenge = none then
        some { c.path with challenge := some p.tokens.2, challengePending := true }
      else c.prevPath }

def processPayload (c : Connection) (p : Incoming) : Except Fault Connection := do
  let (c, ok) ← c.processFrames p p.frames
  if ok then
    let c := if .close ∈ p.frames then { c with state := .closed } else c
    if p.otherRemote ∧ ¬ p.frames.all Frame.isProbing ∧ p.number = (c.spaces .data).rxPacket then
      .ok (c.migrate p)
    else .ok c
  else .ok { c with state := .closed }

def upgradeCrypto (c : Connection) : Except Fault Connection :=
  match c.highestSpace with
  | .initial =>
    .ok { c.setSpace .handshake { c.spaces .handshake with crypto := true } with
      highestSpace := .handshake }
  | .handshake =>
    .ok { c.setSpace .data { c.spaces .data with crypto := true } with
      highestSpace := .data
      zeroRttCrypto := c.zeroRttCrypto && c.side = .server }
  | .data => .error .panic

/-- `Connection::write_crypto`, with as many keys as the TLS session hands out. -/
def writeCrypto (c : Connection) : Nat → Except Fault Connection
  | 0 => .ok c
  | secrets + 1 => do
    let c ← c.upgradeCrypto
    c.writeCrypto secrets

/-- The frames of `process_early_payload`; `none` after a CONNECTION_CLOSE. -/
def processEarlyFrames (c : Connection) (p : Incoming) :
    List Frame → Except Fault (Connection × Option Bool)
  | [] => .ok (c, some true)
  | .padding :: frames | .other false :: frames => c.processEarlyFrames p frames
  | .ack ack :: frames => do
    let (c, ok) ← c.onAckReceived p.now p.kind.space ack
    if ok then c.processEarlyFrames p frames else .ok (c, some false)
  | .close :: _ => .ok ({ c with state := .closed }, none)
  | _ => .ok (c, some false)

/-- `Connection::process_early_payload`; `false` if the connection fails on it. -/
def processEarlyPayload (c : Connection) (p : Incoming) : Except Fault (Connection × Bool) := do
  let (c, result) ← c.processEarlyFrames p p.frames
  match result with
  | some true => do
    let c ← c.writeCrypto p.secrets
    .ok (c, true)
  | some false => .ok ({ c with state := .closed }, false)
  | none => .ok (c, true)

/-- A server that receives its first Handshake packet is done with the Initial space. -/
def serverLeaveInitial (c : Connection) (id : SpaceId) : Except Fault Connection :=
  if c.side = .server ∧ (c.spaces .initial).crypto ∧ id = .handshake then
    c.discardSpace .initial
  else .ok c

def onPacketAuthenticated (c : Connection) (id : SpaceId) (packet : Nat) :
    Except Fault Connection := do
  let c ← c.serverLeaveInitial id
  .ok (if (c.spaces id).rxPacket ≤ packet then c.setSpace id { c.spaces id with rxPacket := packet }
    else c)

/-- What ends with the handshake: 0-RTT packets that were rejected, or the Handshake
space of a server. -/
def endHandshake (c : Connection) (p : Incoming) : Except Fault Connection :=
  match c.side with
  | .client => if p.zeroRttRejected then c.abandonAll .data else .ok c
  | .server => c.discardSpace .handshake

def establish (c : Connection) (p : Incoming) : Except Fault Connection := do
  let c ← c.endHandshake p
  .ok { c with state := .established }

def processDecryptedPacket (c : Connection) (p : Incoming) : Except Fault Connection :=
  match c.state, p.kind with
  | .closed, _ => .ok c
  | .established, kind =>
    if kind.space = .data then c.processPayload p
    else do
      let (c, _) ← c.processEarlyPayload p
      .ok c
  | .handshake, .initial =>
    if p.mismatched then .ok c
    else do
      let startingSpace := c.highestSpace
      let (c, ok) ← c.processEarlyPayload p
      .ok (if ok ∧ c.side = .server ∧ startingSpace = .initial ∧ c.highestSpace ≠ .initial then
        { c with zeroRttCrypto := c.zeroRttCrypto || p.earlyCrypto }
      else c)
  | .handshake, .handshake =>
    if p.mismatched then .ok c
    else do
      let (c, _) ← c.processEarlyPayload p
      if c.state = .closed ∨ ¬ p.complete then .ok c else c.establish p
  | .handshake, .zeroRtt => c.processPayload p
  | .handshake, .short => .ok c

/-- `on_packet_authenticated` is called while the connection is not closed. -/
def authenticate (c : Connection) (p : Incoming) : Except Fault Connection :=
  if c.state = .closed then .ok c else c.onPacketAuthenticated p.kind.space p.number

/-- `Connection::handle_datagram` and `handle_packet`, for a packet that carries a number. -/
def handlePacket (c : Connection) (p : Incoming) : Except Fault Connection :=
  if p.otherRemote ∧ (c.state = .handshake ∨ ¬ (c.side = .server ∧ c.migration)) then .ok c
  -- Without keys the packet is not authenticated.
  else if ¬ ((c.spaces p.kind.space).crypto ∨ p.kind = .zeroRtt ∧ c.zeroRttCrypto) then .ok c
  else do
    let (duplicate, dedup) ← (c.spaces p.kind.space).dedup.insert p.number
    let c := c.setSpace p.kind.space { c.spaces p.kind.space with dedup }
    if duplicate ∨ c.state = .handshake ∧ p.kind = .short ∨
        c.state = .handshake ∧ c.side = .server ∧ p.kind = .initial ∧ p.badToken then .ok c
    else do
      let c ← c.authenticate p
      c.processDecryptedPacket p

/-- A Retry that the client accepts. -/
def retry (c : Connection) : Except Fault Connection :=
  if c.side = .client ∧ c.state = .handshake then do
    -- The server has got the first Initial.
    let c ← ackPacket .initial c 0
    let c ← c.discardSpace .initial
    let c := c.setSpace .initial { PacketSpace.new with
      crypto := true
      nextPacketNumber := (c.spaces .initial).nextPacketNumber }
    c.abandonAll .data
  else .ok c

def pathValidationTimeout (c : Connection) : Connection :=
  let path := c.prevPath.getD c.path
  { c with path := { path with challenge := none, challengePending := false }, prevPath := none }

end Connection

inductive Event
  | transmit (out : Outgoing)
  | closePacket (space : SpaceId) (random : Nat)
  | mtuProbe (now : Instant) (length random : Nat)
  | pathChallenge (random : Nat)
  | packet (p : Incoming)
  | retry
  | lossDetection (now : Instant) (space : SpaceId) (lossDelay : Nat) (blackHole : Bool)
  | pathValidation
  | keyDiscard
  /-- `Connection::path_changed`. -/
  | pathChanged
  /-- A local close, or any error that closes the connection. -/
  | close

def Connection.handle (c : Connection) : Event → Except Fault Connection
  | .transmit out => c.transmitPacket out
  | .closePacket space random => c.closePacket space random
  | .mtuProbe now length random => c.mtuProbe now length random
  | .pathChallenge random => c.sendPathChallenge random
  | .packet p => c.handlePacket p
  | .retry => c.retry
  | .lossDetection now space lossDelay blackHole =>
    c.detectLostPackets now space lossDelay blackHole
  | .pathValidation => .ok c.pathValidationTimeout
  | .keyDiscard => .ok { c with zeroRttCrypto := false }
  | .pathChanged => .ok { c with path := { c.path with inFlightMtuProbe := none } }
  | .close => .ok { c with state := .closed }

def system : System Connection Event where
  initial c := ∃ side migration packetThreshold zeroRttCrypto filter,
    c = .new side migration packetThreshold zeroRttCrypto filter
  step c event := (c.handle event).toOption

end Quac.Recovery
