import Quac.Identifiers
import Quac.Lib.BoundedQueue

/-!
What the engine thread shares with the application's handles (`bridge.rs`).
-/

namespace Quac.Bridge

open Identifiers Lib.BoundedQueue

def recvDataCap : Nat := 16

def evtQueueCap : Nat := 256

abbrev Task := Nat

/-- Shared objects, by the order in which they were allocated. -/
abbrev CellId := Nat

abbrev ConnId := Nat

/-- The task registered with an `AtomicWaker`: it sleeps until it is woken. -/
abbrev AtomicWaker := Option Task

structure StreamCell where
  recvData : ArrayQueue Bytes
  recvWaker : AtomicWaker
  recvFin : Bool
  sendWaker : AtomicWaker

def StreamCell.new : StreamCell :=
  ⟨.new recvDataCap, none, false, none⟩

inductive TileAppCommand
  | write (conn : Nat) (stream : StreamId) (data : Bytes) (fin : Bool)
  | openStream (conn : Nat) (dir : Dir)
  | finish (conn : Nat) (stream : StreamId)
  | resetStream (conn : Nat) (stream : StreamId) (code : Nat)
  | closeConn (conn : Nat)

def TileAppCommand.conn : TileAppCommand → Nat
  | .write conn _ _ _ | .openStream conn _ | .finish conn _ | .resetStream conn _ _
  | .closeConn conn => conn

inductive ConnEvent
  | peerBiStream (id : StreamId) (cell : CellId)
  | peerUniStream (id : StreamId) (cell : CellId)
  | localStream (id : StreamId) (cell : CellId)
  | connectionClosed
deriving DecidableEq

structure ConnState where
  evtQueue : ArrayQueue ConnEvent
  evtWaker : AtomicWaker

def ConnState.new : ConnState :=
  ⟨.new evtQueueCap, none⟩

structure AppConnection where
  state : ConnId
  slot : Nat
deriving DecidableEq

end Quac.Bridge
