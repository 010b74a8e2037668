import Quac.Bridge
import Quac.ProtoEndpoint

/-!
The engine of a tile (`tile_engine.rs`).  The cells and connection states that it
shares with the application are kept with it, indexed in the order of their
allocation.
-/

namespace Quac.TileEngine

open Bridge Identifiers Lib.BoundedQueue Lib.Slabs ProtoConnection ProtoEndpoint StreamAccess
open Timers

def cmdQueueCap : Nat := 4096

/-- `QUEUE_CAP` of the packet queues and of the queue of new connections. -/
def queueCap : Nat := 1024

structure ConnectionSlot where
  handle : Nat
  inner : Connection
  nextTimeout : Option Instant
  hasPendingSend : Bool
  streams : StreamId → Option CellId
  connState : ConnId

structure Engine where
  endpoint : Endpoint
  serverConfig : TransportConfig
  connections : Slab ConnectionSlot
  chToSlot : Nat → Option Nat
  rxQueues : List (ArrayQueue Bytes)
  txQueue : ArrayQueue Bytes
  cmdQueue : ArrayQueue TileAppCommand
  incoming : ArrayQueue AppConnection
  incomingWaker : AtomicWaker
  pendingSend : List Nat
  cells : CellId → StreamCell
  nextCell : CellId
  conns : ConnId → ConnState
  nextConn : ConnId

/-- Timers that new identifiers set, for each reply of the endpoint. -/
abbrev Replies := Nat → Rearm

/-- What the endpoint makes of a datagram. -/
inductive DatagramEvent
  | forConnection (ch : Nat) (event : Connection.Datagram)
  | newConnection (incoming : Incoming)
  | response (transmit : Transmit)
  | nothing

namespace Engine

def new (serverConfig : TransportConfig) (networkTiles : Nat) : Engine where
  endpoint := .new
  serverConfig
  connections := .empty
  chToSlot := fun _ => none
  rxQueues := List.replicate networkTiles (.new queueCap)
  txQueue := .new queueCap
  cmdQueue := .new cmdQueueCap
  incoming := .new queueCap
  incomingWaker := none
  pendingSend := []
  cells := fun _ => .new
  nextCell := 0
  conns := fun _ => .new
  nextConn := 0

def slot (e : Engine) (slotIdx : Nat) : Option ConnectionSlot :=
  e.connections.get slotIdx

def setSlot (e : Engine) (slotIdx : Nat) (slot : ConnectionSlot) : Engine :=
  { e with connections := e.connections.set slotIdx slot }

def setCell (e : Engine) (cell : CellId) (value : StreamCell) : Engine :=
  { e with cells := Function.update e.cells cell value }

/-- `let _ = queue.push(..)`, and the wake-up that follows it. -/
def pushEvent (e : Engine) (conn : ConnId) (event : ConnEvent) : Engine :=
  { e with
    conns := Function.update e.conns conn
      ⟨((e.conns conn).evtQueue.push event).getD (e.conns conn).evtQueue, none⟩ }

def pushTx (e : Engine) (payload : Bytes) : Engine :=
  { e with txQueue := (e.txQueue.push payload).getD e.txQueue }

def enqueueProtoTransmit (e : Engine) (transmit : Transmit) : Engine :=
  if transmit.size = 0 ∨ transmit.scratch.length < transmit.size then e
  else e.pushTx (transmit.scratch.take transmit.size)

/-- Queue the slot for the next `drive_transmit`, unless it is queued already. -/
def markPendingSend (e : Engine) (slotIdx : Nat) : Engine :=
  match e.slot slotIdx with
  | some slot =>
    if slot.hasPendingSend then e
    else
      { e.setSlot slotIdx { slot with hasPendingSend := true } with
        pendingSend := e.pendingSend ++ [slotIdx] }
  | none => e

def setInner (e : Engine) (slotIdx : Nat) (slot : ConnectionSlot) (inner : Connection) : Engine :=
  e.setSlot slotIdx { slot with inner }

def openStreamCell (e : Engine) (slotIdx : Nat) (id : StreamId) (isLocal : Bool) : Engine :=
  match e.slot slotIdx with
  | none => e
  | some slot =>
    let cell := e.nextCell
    let event : ConnEvent :=
      if isLocal then .localStream id cell
      else
        match id.dir with
        | .bi => .peerBiStream id cell
        | .uni => .peerUniStream id cell
    let e := { e.setCell cell .new with nextCell := cell + 1 }
    let e := e.setSlot slotIdx { slot with streams := Function.update slot.streams id (some cell) }
    e.pushEvent slot.connState event

/-- Phase 2 of `drain_readable_stream`: read until `room` chunks are there, the
stream is at its end or nothing can be read. -/
def readChunks (chunks : Chunks) : Nat → List Bytes × Bool × Chunks
  | 0 => ([], false, chunks)
  | room + 1 =>
    match chunks.next 65536 with
    | (.ok (some chunk), chunks) =>
      let (rest, fin, chunks) := readChunks chunks room
      (chunk.bytes :: rest, fin, chunks)
    | (.ok none, chunks) => ([], true, chunks)
    | (.error _, chunks) => ([], false, chunks)

/-- Phase 3: push the chunks, then set the FIN flag, then wake the reader.  `pushed`
tells whether a push has succeeded before. -/
def deliverFrom (pushed : Bool) (cell : StreamCell) : List Bytes → Bool → StreamCell
  | [], fin =>
    { cell with
      recvFin := cell.recvFin || fin
      recvWaker := if pushed || fin then none else cell.recvWaker }
  | data :: chunks, fin =>
    match cell.recvData.push data with
    | some recvData => deliverFrom true { cell with recvData } chunks fin
    | none => deliverFrom pushed cell chunks fin

def deliver (cell : StreamCell) (chunks : List Bytes) (fin : Bool) : StreamCell :=
  deliverFrom false cell chunks fin

def drainReadableStream (e : Engine) (slotIdx : Nat) (id : StreamId) : Engine :=
  match e.slot slotIdx with
  | none => e
  | some slot =>
    match slot.streams id with
    | none => e
    | some cell =>
      let room := recvDataCap - (e.cells cell).recvData.items.length
      if room = 0 then e
      else
        match Chunks.new id true slot.inner.streams with
        | .error (_, streams) => e.setInner slotIdx slot { slot.inner with streams }
        | .ok chunks =>
          let (data, fin, chunks) := readChunks chunks room
          let (streams, pending) := chunks.finalize slot.inner.pending
          let e := e.setInner slotIdx slot { slot.inner with streams, pending }
          e.setCell cell (deliver (e.cells cell) data fin)

/-- Accept the peer's streams until none is left; `fuel` bounds their number. -/
def acceptStreams (dir : Dir) (slotIdx : Nat) : Nat → Engine → Engine
  | 0, e => e
  | fuel + 1, e =>
    match e.slot slotIdx with
    | none => e
    | some slot =>
      match acceptStream slot.inner.streams dir with
      | (none, streams) => e.setInner slotIdx slot { slot.inner with streams }
      | (some id, streams) =>
        let e := e.setInner slotIdx slot { slot.inner with streams }
        let e := e.openStreamCell slotIdx id false
        match dir with
        | .bi => acceptStreams dir slotIdx fuel (e.drainReadableStream slotIdx id)
        | .uni => acceptStreams dir slotIdx fuel e

/-- The number of streams that the peer opened and the engine has not accepted. -/
def unaccepted (e : Engine) (slotIdx : Nat) (dir : Dir) : Nat :=
  match e.slot slotIdx with
  | none => 0
  | some slot => slot.inner.streams.nextRemote dir - slot.inner.streams.nextReportedRemote dir

/-- Hand the connection's endpoint events to the endpoint and the replies back. -/
def drainEndpointEvents (replies : Replies) (slotIdx ch : Nat) : Nat → Engine → Engine
  | 0, e => e
  | fuel + 1, e =>
    match e.slot slotIdx with
    | none => e
    | some slot =>
      match slot.inner.pollEndpointEvents with
      | (none, _) => e
      | (some event, inner) =>
        let (reply, endpoint) := e.endpoint.handleEvent ch event
        let inner := if reply then inner.handleEvent (replies fuel) else inner
        drainEndpointEvents replies slotIdx ch fuel
          (setInner { e with endpoint } slotIdx slot inner)

/-- The same when the connection is lost: nobody waits for the replies. -/
def drainLastEndpointEvents (slotIdx ch : Nat) : Nat → Engine → Engine
  | 0, e => e
  | fuel + 1, e =>
    match e.slot slotIdx with
    | none => e
    | some slot =>
      match slot.inner.pollEndpointEvents with
      | (none, _) => e
      | (some event, inner) =>
        drainLastEndpointEvents slotIdx ch fuel
          (setInner { e with endpoint := (e.endpoint.handleEvent ch event).2 }
            slotIdx slot inner)

def endpointEventCount (e : Engine) (slotIdx : Nat) : Nat :=
  match e.slot slotIdx with
  | none => 0
  | some slot => slot.inner.endpointEvents.length

def wakeSender (e : Engine) (slotIdx : Nat) (id : StreamId) : Engine :=
  match (e.slot slotIdx).bind fun slot => slot.streams id with
  | some cell => e.setCell cell { e.cells cell with sendWaker := none }
  | none => e

/-- The connection is lost: tell the application and forget the slot. -/
def removeLost (e : Engine) (slotIdx ch : Nat) : Engine :=
  match e.slot slotIdx with
  | none => e
  | some slot =>
    let e := e.pushEvent slot.connState .connectionClosed
    { e with
      connections := e.connections.remove slotIdx
      chToSlot := Function.update e.chToSlot ch none }

/-- The loop of `drain_connection_events` over the application events; `fuel`
bounds their number. -/
def drainEvents (replies : Replies) (slotIdx ch : Nat) : Nat → Engine → Engine
  | 0, e => e
  | fuel + 1, e =>
    match e.slot slotIdx with
    | none => e
    | some slot =>
      match slot.inner.poll with
      | (none, inner) =>
        e.setSlot slotIdx { slot with inner, nextTimeout := inner.pollTimeout }
      | (some event, inner) =>
        let e := e.setInner slotIdx slot inner
        match event with
        | .stream (.opened dir) =>
          drainEvents replies slotIdx ch fuel
            (acceptStreams dir slotIdx (e.unaccepted slotIdx dir) e)
        | .stream (.readable id) =>
          drainEvents replies slotIdx ch fuel (e.drainReadableStream slotIdx id)
        | .stream (.writable id) =>
          drainEvents replies slotIdx ch fuel (e.wakeSender slotIdx id)
        | .stream (.available dir) =>
          -- `retry_pending_opens`
          let (id, streams) := openStream inner.streams inner.state.isClosed dir
          let e := e.setInner slotIdx slot { inner with streams }
          match id with
          | none => drainEvents replies slotIdx ch fuel e
          | some id =>
            let e := (e.openStreamCell slotIdx id true).markPendingSend slotIdx
            let e := drainEndpointEvents replies slotIdx ch
              (e.endpointEventCount slotIdx) e
            drainEvents replies slotIdx ch fuel (drainEvents replies slotIdx ch fuel e)
        | .connected =>
          drainEvents replies slotIdx ch fuel (e.markPendingSend slotIdx)
        | .connectionLost _ =>
          let e := drainLastEndpointEvents slotIdx ch (e.endpointEventCount slotIdx) e
          e.removeLost slotIdx ch
        | .stream (.finished _) | .stream (.stopped _ _) | .handshakeDataReady
        | .handshakeConfirmed | .datagramReceived | .datagramsUnblocked =>
          drainEvents replies slotIdx ch fuel e

/-- More than the number of events that the slot's connection can report. -/
def eventBound (e : Engine) (slotIdx : Nat) : Nat :=
  match e.slot slotIdx with
  | none => 0
  | some slot =>
    let s := slot.inner.streams
    slot.inner.events.length + (if s.opened .bi then 1 else 0) +
      (if s.opened .uni then 1 else 0) + s.connectionBlocked.length + s.events.length + 2

def drainConnectionEvents (replies : Replies) (e : Engine) (slotIdx : Nat) : Engine :=
  match e.slot slotIdx with
  | none => e
  | some slot =>
    let e := drainEndpointEvents replies slotIdx slot.handle (e.endpointEventCount slotIdx) e
    drainEvents replies slotIdx slot.handle (e.eventBound slotIdx) e

/-- An accepted connection gets a slot, and the application a handle. -/
def addConnection (e : Engine) (ch : Nat) (conn : Connection) : Engine :=
  let slotIdx := e.connections.vacantKey
  let connState := e.nextConn
  let handle : AppConnection := ⟨connState, slotIdx % 2 ^ 32⟩
  { e with
    conns := Function.update e.conns connState .new
    nextConn := connState + 1
    connections := e.connections.insert
      { handle := ch
        inner := conn
        nextTimeout := none
        hasPendingSend := true
        streams := fun _ => none
        connState }
    pendingSend := e.pendingSend ++ [slotIdx]
    chToSlot := Function.update e.chToSlot ch (some slotIdx)
    incoming := (e.incoming.push handle).getD e.incoming
    incomingWaker := none }

/-- The body of the loop of `recv_and_dispatch`. -/
def dispatch (e : Engine) (replies : Replies) : DatagramEvent → Engine
  | .forConnection ch event =>
    match e.chToSlot ch with
    | none => e
    | some slotIdx =>
      let e :=
        match e.slot slotIdx with
        | some slot =>
          (e.setInner slotIdx slot (slot.inner.handleDatagram event)).markPendingSend slotIdx
        | none => e
      drainConnectionEvents replies e slotIdx
  | .newConnection incoming =>
    match e.endpoint.accept e.serverConfig incoming with
    | (.ok (ch, conn), endpoint) =>
      drainConnectionEvents replies (addConnection { e with endpoint } ch conn)
        e.connections.vacantKey
    | (.error response, endpoint) =>
      let e := { e with endpoint }
      match response with
      | some transmit => e.enqueueProtoTransmit transmit
      | none => e
  | .response transmit => e.enqueueProtoTransmit transmit
  | .nothing => e

/-- What a command finds out from its environment: the clock and the probe
timeout when the connection is closed. -/
structure CommandInput where
  now : Instant
  pto : Nat
  replies : Replies

/-- The commands that act on one connection all go on like this. -/
def withSlot (e : Engine) (input : CommandInput) (slotIdx : Nat)
    (act : Connection → Connection) : Engine :=
  let e :=
    match e.slot slotIdx with
    | some slot => (e.setInner slotIdx slot (act slot.inner)).markPendingSend slotIdx
    | none => e
  drainConnectionEvents input.replies e slotIdx

/-- The body of the loop of `process_app_commands`. -/
def processCommand (e : Engine) (input : CommandInput) : TileAppCommand → Engine
  | .write conn stream data fin =>
    e.withSlot input conn fun c =>
      let s := (writeStream c.streams c.state.isClosed stream data).2
      { c with streams := if fin then (finishStream s stream).2 else s }
  | .openStream conn dir =>
    match e.slot conn with
    | none => e
    | some slot =>
      let (id, streams) := openStream slot.inner.streams slot.inner.state.isClosed dir
      let e := e.setInner conn slot { slot.inner with streams }
      match id with
      | none => e
      | some id =>
        let e := (e.openStreamCell conn id true).markPendingSend conn
        drainConnectionEvents input.replies e conn
  | .finish conn stream =>
    e.withSlot input conn fun c => { c with streams := (finishStream c.streams stream).2 }
  | .resetStream conn stream code =>
    e.withSlot input conn fun c =>
      let (_, streams, pending) := resetStream c.streams c.pending stream (code % 2 ^ 32)
      { c with streams, pending }
  | .closeConn conn => e.withSlot input conn fun c => c.closeInner input.now input.pto

/-- The slots that `fire_timers` finds due. -/
def dueSlots (e : Engine) (now : Instant) : List Nat :=
  e.connections.keys.filter fun slotIdx =>
    (e.slot slotIdx).any fun slot => slot.nextTimeout.any fun t => decide (t ≤ now)

/-- The body of the loop of `fire_timers`. -/
def fireTimer (e : Engine) (now : Instant) (input : Connection.TimeoutInput) (replies : Replies)
    (slotIdx : Nat) : Engine :=
  let e :=
    match e.slot slotIdx with
    | some slot =>
      (e.setInner slotIdx slot (slot.inner.handleTimeout now input)).markPendingSend slotIdx
    | none => e
  drainConnectionEvents replies e slotIdx

def beginTransmit (e : Engine) (slotIdx : Nat) : Engine :=
  match e.slot slotIdx with
  | none => e
  | some slot => e.setSlot slotIdx { slot with hasPendingSend := false }

/-- One `poll_transmit` of `drive_transmit`; the result tells whether it gave a
datagram. -/
def transmitOnce (e : Engine) (input : Connection.TransmitInput) (firstPoll : Bool)
    (slotIdx : Nat) : Bool × Engine :=
  match e.slot slotIdx with
  | none => (false, e)
  | some slot =>
    match slot.inner.pollTransmit input with
    | (none, inner) =>
      if firstPoll then (false, e.setInner slotIdx slot inner)
      else
        (false, { e.setSlot slotIdx { slot with inner, hasPendingSend := true } with
            pendingSend := e.pendingSend ++ [slotIdx] })
    | (some transmit, inner) =>
      let e := e.setSlot slotIdx { slot with inner, nextTimeout := inner.pollTimeout }
      (true, e.pushTx (transmit.scratch.take transmit.size))

def nextDeadline (e : Engine) : Option Instant :=
  (e.connections.keys.filterMap fun slotIdx =>
    (e.slot slotIdx).bind fun slot => slot.nextTimeout).min?

end Engine

end Quac.TileEngine
