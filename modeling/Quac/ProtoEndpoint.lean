import Quac.Lib.Slabs
import Quac.ProtoConnection

/-!
The endpoint of `quic-proto`, as far as the handles it gives to connections go
(`endpoint.rs`).  How it routes a datagram to a handle is an input.
-/

namespace Quac.ProtoEndpoint

open Identifiers Lib.Slabs ProtoConnection

/-- The IDs issued for a connection, by their sequence numbers. -/
structure ConnectionMeta where
  cidsIssued : Nat
  locCids : List Nat

structure Endpoint where
  connections : Slab ConnectionMeta

inductive Incoming
  /-- Stale, not authentic, or no connection IDs are left. -/
  | refused (response : Option Transmit)
  | initial (preferredAddress : Bool) (first : Decrypted) (rest : Connection.Datagram)
      (buffered : List Connection.Datagram) (close : Transmit)

namespace Endpoint

def new : Endpoint :=
  ⟨.empty⟩

def sendNewIdentifiers (e : Endpoint) (ch count : Nat) : Endpoint :=
  match e.connections.get ch with
  | none => e
  | some info =>
    ⟨e.connections.set ch
      ⟨info.cidsIssued + count, info.locCids ++ (List.range count).map (info.cidsIssued + ·)⟩⟩

/-- `handle_event`; the result tells whether new identifiers go to the connection. -/
def handleEvent (e : Endpoint) (ch : Nat) : EndpointEvent → Bool × Endpoint
  | .needIdentifiers count => (true, e.sendNewIdentifiers ch count)
  | .resetToken => (false, e)
  | .retireConnectionId sequence allowMoreCids =>
    match e.connections.get ch with
    | none => (false, e)
    | some info =>
      if sequence ∈ info.locCids then
        let e : Endpoint :=
          ⟨e.connections.set ch { info with locCids := info.locCids.erase sequence }⟩
        if allowMoreCids then (true, e.sendNewIdentifiers ch 1) else (false, e)
      else (false, e)
  | .drained => (false, ⟨e.connections.remove ch⟩)

def addConnection (e : Endpoint) (preferredAddress : Bool) : Endpoint :=
  ⟨e.connections.insert (if preferredAddress then ⟨2, [0, 1]⟩ else ⟨1, [0]⟩)⟩

/-- `accept`: the handle and the connection, or the response to a failed attempt. -/
def accept (e : Endpoint) (config : TransportConfig) :
    Incoming → Except (Option Transmit) (Nat × Connection) × Endpoint
  | .refused response => (.error response, e)
  | .initial preferredAddress first rest buffered close =>
    let ch := e.connections.vacantKey
    let e := e.addConnection preferredAddress
    match (Connection.new config).handleFirstPacket first rest with
    | .ok conn => (.ok (ch, buffered.foldl Connection.handleDatagram conn), e)
    -- On a server the first packet fails with transport errors only, each of which
    -- is answered.
    | .error _ => (.error (some close), (e.handleEvent ch .drained).2)

end Endpoint

end Quac.ProtoEndpoint
