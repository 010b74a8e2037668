import Quac.CallAccounts

/-!
Two sides of a connection and the network between them.  A frame that was sent may
arrive at the peer at any time and any number of times, or never.  A log notes what
the users of the two sides did to each stream.
-/

namespace Quac.StreamLink

open CallAccounts Identifiers Lib.Transition StreamParty Streams

structure Config where
  maxConcurrentUniStreams : Nat
  maxConcurrentBidiStreams : Nat
  sendWindow : Nat
  receiveWindow : Nat
  streamReceiveWindow : Nat

def Config.limits (c : Config) : StreamsState.PeerLimits where
  initialMaxStreamDataUni := c.streamReceiveWindow
  initialMaxStreamDataBidiLocal := c.streamReceiveWindow
  initialMaxStreamDataBidiRemote := c.streamReceiveWindow
  initialMaxStreamsBidi := c.maxConcurrentBidiStreams
  initialMaxStreamsUni := c.maxConcurrentUniStreams
  initialMaxData := c.receiveWindow

/-- Each side starts with the transport parameters of the other. -/
def start (config : Side → Config) (side : Side) : State :=
  ⟨.new side (config side).maxConcurrentUniStreams (config side).maxConcurrentBidiStreams
    (config side).sendWindow (config side).receiveWindow (config side).streamReceiveWindow
    (config side.peer).limits, []⟩

def Offered (l : Side → State) (side : Side) : Move → Prop
  | .receive _ frame => frame ∈ (l side.peer).sent
  | _ => True

instance (l : Side → State) (side : Side) : DecidablePred (Offered l side)
  | .receive _ frame => inferInstanceAs (Decidable (frame ∈ (l side.peer).sent))
  | .call _ | .transmit _ | .acked _ | .lost _ => inferInstanceAs (Decidable True)

def linkStep (l : Side → State) (move : Side × Move) : Option (Side → State) :=
  if Offered l move.1 move.2 then (step (l move.1) move.2).map (Function.update l move.1) else none

def link : System (Side → State) (Side × Move) where
  initial l := ∃ config, l = start config
  step := linkStep

structure Log where
  /-- The bytes that `write` accepted. -/
  written : StreamId → Bytes
  /-- `finish` was called. -/
  finished : StreamId → Bool
  /-- `reset` was called. -/
  reset : StreamId → Bool
  read : StreamId → Bytes
  /-- A read returned the end of the stream. -/
  ended : StreamId → Bool

namespace Log

def empty : Log :=
  ⟨fun _ => [], fun _ => false, fun _ => false, fun _ => [], fun _ => false⟩

def called (log : Log) : Call → Reply → Log
  | .write id data, .wrote (.ok n) =>
    { log with written := Function.update log.written id (log.written id ++ data.take n) }
  | .finish id, .finished (.ok ()) =>
    { log with finished := Function.update log.finished id true }
  | .reset id _, .reset true => { log with reset := Function.update log.reset id true }
  | .read id _, .read results =>
    { log with
      read := Function.update log.read id (log.read id ++ readBytes results)
      ended := Function.update log.ended id (log.ended id || readsEnd results) }
  | _, _ => log

def moved (log : Log) (s : State) : Move → Log
  | .call c => log.called c (s.party.call c).1
  | _ => log

def observe (l : Side → State) (move : Side × Move) (logs : Side → Log) : Side → Log :=
  Function.update logs move.1 ((logs move.1).moved (l move.1) move.2)

end Log

def conversation : System ((Side → State) × (Side → Log)) (Side × Move) :=
  link.observed (fun _ => .empty) Log.observe

theorem peer_peer (side : Side) : side.peer.peer = side := by
  cases side <;> rfl

theorem eq_or_eq_peer (side other : Side) : other = side ∨ other = side.peer := by
  cases side <;> cases other <;> simp [Side.peer]

theorem linkStep_eq_some {l l' : Side → State} {side : Side} {m : Move}
    (h : linkStep l (side, m) = some l') :
    Offered l side m ∧ ∃ s, step (l side) m = some s ∧ l' = Function.update l side s := by
  unfold linkStep at h
  split_ifs at h with hoffered
  obtain ⟨s, hs, rfl⟩ := Option.map_eq_some_iff.mp h
  exact ⟨hoffered, s, hs, rfl⟩

end Quac.StreamLink
