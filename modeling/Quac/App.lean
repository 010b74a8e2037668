import Quac.PollRead

/-!
The application's handles (`app.rs`).  A poll of a future is one step here;
`PollRead` takes the polls of a reader apart.
-/

namespace Quac.App

open Bridge Identifiers Lib.BoundedQueue PollRead TileEngine

structure SendStream where
  state : ConnId
  slot : Nat
  id : StreamId
  cell : CellId
deriving DecidableEq

structure RecvStream where
  state : ConnId
  slot : Nat
  id : StreamId
  cell : CellId
  leftover : Bytes
deriving DecidableEq

structure Handles where
  connections : List AppConnection
  sends : List SendStream
  recvs : List RecvStream

def Handles.none : Handles :=
  ⟨[], [], []⟩

/-- `ConnState::send_cmd`: a command that finds the queue full is lost. -/
def sendCmd (e : Engine) (cmd : TileAppCommand) : Engine :=
  { e with cmdQueue := (e.cmdQueue.push cmd).getD e.cmdQueue }

def accept (e : Engine) (task : Task) : Option AppConnection × Engine :=
  match e.incoming.pop with
  | some (conn, incoming) => (some conn, { e with incoming })
  | none => (none, { e with incomingWaker := some task })

/-- The loop over the event queue: it ends at the first event, which goes to the
back of the queue when it is not the one waited for. -/
def takeEvent (wanted : ConnEvent → Option (StreamId × CellId)) (q : ArrayQueue ConnEvent) :
    Option (Option (StreamId × CellId)) × ArrayQueue ConnEvent :=
  match q.pop with
  | none => (none, q)
  | some (event, rest) =>
    match wanted event, event with
    | some stream, _ => (some (some stream), rest)
    | none, .connectionClosed => (some none, rest)
    | none, _ => (none, (rest.push event).getD rest)

/-- The common body of `accept_bi` and `open_bi`; the result is `none` while the
future is pending. -/
def pollStream (wanted : ConnEvent → Option (StreamId × CellId)) (state : ConnState)
    (task : Task) : Option (Option (StreamId × CellId)) × ConnState :=
  match takeEvent wanted state.evtQueue with
  | (some result, evtQueue) => (some result, { state with evtQueue })
  | (none, evtQueue) =>
    let (result, evtQueue) := takeEvent wanted evtQueue
    (result, ⟨evtQueue, some task⟩)

def peerBi : ConnEvent → Option (StreamId × CellId)
  | .peerBiStream id cell => some (id, cell)
  | _ => none

def localBi : ConnEvent → Option (StreamId × CellId)
  | .localStream id cell => if id.dir = .bi then some (id, cell) else none
  | _ => none

def pollBi (wanted : ConnEvent → Option (StreamId × CellId)) (e : Engine) (h : Handles)
    (conn : AppConnection) (task : Task) : Engine × Handles :=
  let (result, state) := pollStream wanted (e.conns conn.state) task
  let e := { e with conns := Function.update e.conns conn.state state }
  match result with
  | some (some (id, cell)) =>
    (e, { h with
      sends := ⟨conn.state, conn.slot, id, cell⟩ :: h.sends
      recvs := ⟨conn.state, conn.slot, id, cell, []⟩ :: h.recvs })
  | _ => (e, h)

def acceptBi := pollBi peerBi

def openBi := pollBi localBi

/-- `poll_write`: the number of bytes reported as written, `none` while pending. -/
def pollWrite (e : Engine) (stream : SendStream) (buf : Bytes) (task : Task) :
    Option Nat × Engine :=
  match e.cmdQueue.push (.write stream.slot stream.id buf false) with
  | some cmdQueue => (some buf.length, { e with cmdQueue })
  | none => (none, e.setCell stream.cell { e.cells stream.cell with sendWaker := some task })

def finish (e : Engine) (stream : SendStream) : Engine :=
  sendCmd e (.finish stream.slot stream.id)

def readStream (e : Engine) (h : Handles) (i remaining : Nat) (task : Task) :
    Option (Poll × Engine × Handles) :=
  h.recvs[i]?.map fun stream =>
    let (result, leftover, cell) := pollRead (e.cells stream.cell) stream.leftover remaining task
    (result, e.setCell stream.cell cell, { h with recvs := h.recvs.set i { stream with leftover } })

end Quac.App
