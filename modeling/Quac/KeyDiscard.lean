import Quac.Identifiers
import Quac.Lib.Transition

/-!
The keys that a server connection holds for a while, those for 0-RTT and those of
the previous key phase, and the timer that discards both.
-/

namespace Quac.KeyDiscard

open Identifiers Lib.Transition

inductive Header
  | short (keyPhase : Bool)
  | zeroRtt
  /-- The packets of the Initial and Handshake spaces. -/
  | handshake
deriving DecidableEq

def Header.isShort : Header → Bool
  | .short _ => true
  | _ => false

def Header.keyPhase : Header → Bool
  | .short keyPhase => keyPhase
  | _ => false

/-- A received packet, with what comes of it: whether it decrypts, and whether its
frames complete the handshake or it ends the connection. -/
structure Packet where
  header : Header
  number : Nat
  decrypts : Bool
  duplicate : Bool
  completes : Bool
  closes : Bool

structure PrevCrypto where
  endPacket : Option (Nat × Instant)
  updateUnacked : Bool

inductive Phase
  | handshake
  | established
  | closed
deriving DecidableEq

structure Connection where
  state : Phase
  zeroRttCrypto : Bool
  prevCrypto : Option PrevCrypto
  keyPhase : Bool
  rxPacket : Nat
  keyDiscard : Option Instant
  /-- What the first authenticated 1-RTT packet set the timer to. -/
  first : Option Instant

namespace Connection

/-- `none` where the previous keys or their end are missing. -/
def setKeyDiscardTimer (c : Connection) (now pto : Instant) : Option Connection :=
  (if c.zeroRttCrypto then some now
    else (c.prevCrypto.bind PrevCrypto.endPacket).map Prod.snd).map fun start =>
      { c with keyDiscard := some (start + pto * 3) }

/-- Closing stops all timers, the first time. -/
def closeIf (c : Connection) (closes : Bool) : Connection :=
  if closes ∧ c.state ≠ .closed then { c with state := .closed, keyDiscard := none } else c

def updateKeys (c : Connection) (endPacket : Option (Nat × Instant)) (remote : Bool) : Connection :=
  { c with prevCrypto := some ⟨endPacket, remote⟩, keyPhase := !c.keyPhase }

def forceKeyUpdate (c : Connection) : Connection :=
  if c.state = .established ∧ c.prevCrypto.isNone then c.updateKeys none false else c

def outgoingKeyUpdateAcked (c : Connection) (p : Packet) : Bool :=
  p.header.keyPhase == c.keyPhase && c.prevCrypto.any fun prev => prev.endPacket.isNone

def incomingKeyUpdate (c : Connection) (p : Packet) : Bool :=
  p.header.isShort && p.header.keyPhase != c.keyPhase &&
    !c.prevCrypto.any fun prev => prev.endPacket.all fun e => p.number < e.1

def keyUpdateError (c : Connection) (p : Packet) : Bool :=
  c.incomingKeyUpdate p &&
    (decide (p.number ≤ c.rxPacket) || c.prevCrypto.any PrevCrypto.updateUnacked)

/-- The packet is authenticated as a 1-RTT packet, or answers a local key update.  Duplicates are
dropped only after a key update that they begin. -/
def renews (c : Connection) (p : Packet) : Bool :=
  p.decrypts && (p.header.isShort && !p.duplicate || c.incomingKeyUpdate p ||
    c.outgoingKeyUpdateAcked p)

def decryptPacket (c : Connection) (now pto : Instant) (p : Packet) : Option Connection :=
  if c.outgoingKeyUpdateAcked p then
    setKeyDiscardTimer { c with prevCrypto := c.prevCrypto.map fun prev =>
      { prev with endPacket := some (p.number, now) } } now pto
  else if c.incomingKeyUpdate p then
    (c.updateKeys (some (p.number, now)) true).setKeyDiscardTimer now pto
  else some c

def onPacketAuthenticated (c : Connection) (now pto : Instant) (p : Packet) : Option Connection :=
  (if c.zeroRttCrypto && p.header.isShort then
    setKeyDiscardTimer { c with first := c.first.or (some (now + pto * 3)) } now pto
  else some c).map fun c =>
    if p.header = .handshake then c else { c with rxPacket := max c.rxPacket p.number }

def processPacket (c : Connection) (p : Packet) : Connection :=
  closeIf (if p.completes && c.state = .handshake then { c with state := .established } else c)
    p.closes

def handlePacket (c : Connection) (now pto : Instant) (p : Packet) : Option Connection :=
  if p.header = .zeroRtt ∧ ¬c.zeroRttCrypto then some c
  -- such a packet ends the connection at the integrity limit or with reserved bits set
  else if p.decrypts = false then some (c.closeIf p.closes)
  else if c.keyUpdateError p then some (c.closeIf true)
  else (c.decryptPacket now pto p).bind fun c =>
    if p.duplicate || c.state = .handshake && p.header.isShort then some c
    else (if c.state = .closed then some c else c.onPacketAuthenticated now pto p).map
      (·.processPacket p)

def handleTimeout (c : Connection) (now : Instant) : Connection :=
  if c.keyDiscard.any fun t => t ≤ now then
    { c with keyDiscard := none, zeroRttCrypto := false, prevCrypto := none }
  else c

/-- A packet of the Data space is built, which may exhaust the key phase. -/
def buildPacket (c : Connection) (exhausted : Bool) : Connection :=
  let c := { c with prevCrypto := c.prevCrypto.map fun prev =>
    { prev with updateUnacked := false } }
  if exhausted then c.forceKeyUpdate else c

def Armed (c : Connection) : Prop :=
  ∀ d, c.first = some d → c.zeroRttCrypto → c.keyDiscard = some d

end Connection

inductive Label
  | packet (now pto : Instant) (p : Packet)
  | build (exhausted : Bool)
  | forceKeyUpdate
  | timeout (now : Instant)
  | close

/-- A server that has derived the 0-RTT keys from the first flight of its client. -/
def start : Connection :=
  ⟨.handshake, true, none, false, 0, none, none⟩

def system : System Connection Label where
  initial c := c = start
  step c
    | .packet now pto p => c.handlePacket now pto p
    | .build exhausted => some (c.buildPacket exhausted)
    | .forceKeyUpdate => some c.forceKeyUpdate
    | .timeout now => some (c.handleTimeout now)
    | .close => some (c.closeIf true)

/-- While the 0-RTT keys are held nothing closes the connection, and only one packet is
authenticated as a 1-RTT packet or answers a local key update. -/
def Timely (c : Connection) : Label → Prop
  | .packet _ _ p => c.zeroRttCrypto → p.closes = false ∧ c.keyUpdateError p = false ∧
      (c.first.isSome → c.renews p = false)
  | .close => c.zeroRttCrypto = false
  | _ => True

section

variable {c c' : Connection} {now pto : Instant} {p : Packet}

open Connection

end

/-- A packet of the handshake that completes it. -/
def finished : Packet :=
  ⟨.handshake, 0, true, false, true, false⟩

def request (number : Nat) : Packet :=
  ⟨.short false, number, true, false, false, false⟩

end Quac.KeyDiscard
