import Quac.Cid

/-!
The invariant part of a packet header, decoded before any key is known.
-/

namespace Quac.Packet

open Coding Cid Lib.Faults

def longHeaderForm : UInt8 := 0x80

def fixedBit : UInt8 := 0x40

def spinBit : UInt8 := 0x20

inductive PacketDecodeError where
  /-- Packet uses a QUIC version that is not supported. -/
  | unsupportedVersion (srcCid dstCid : ConnectionId) (version : UInt32)
  /-- The packet header is invalid. -/
  | invalidHeader (reason : String)
  deriving DecidableEq

/-- The conversion behind `?` on a read past the end of the buffer. -/
def orUnexpectedEnd {α : Type} : Except UnexpectedEnd α → Except PacketDecodeError α
  | .ok x => .ok x
  | .error _ => .error (.invalidHeader "unexpected end of packet")

def orMalformedCid {α : Type} : Option α → Except PacketDecodeError α
  | some x => .ok x
  | none => .error (.invalidHeader "malformed cid")

abbrev ConnectionIdParser :=
  List UInt8 → Except PacketDecodeError (ConnectionId × List UInt8)

def fixedLengthConnectionIdParser (expectedLen : Nat) (h : expectedLen ≤ maxCidSize) :
    ConnectionIdParser := fun buffer =>
  if expectedLen ≤ buffer.length then .ok (ConnectionId.fromBuf buffer expectedLen h)
  else .error (.invalidHeader "packet too small")

inductive LongType where
  | handshake
  | zeroRtt
  deriving DecidableEq

/-- Long packet type including non-uniform cases. -/
inductive LongHeaderType where
  | initial
  | retry
  | standard (ty : LongType)
  deriving DecidableEq

/-- `LongHeaderType::from_byte`; two bits leave no other case. -/
def LongHeaderType.fromByte (b : UInt8) : LongHeaderType :=
  let bits := (b &&& 0x30) >>> 4
  if bits = 0 then .initial
  else if bits = 1 then .standard .zeroRtt
  else if bits = 2 then .standard .handshake
  else .retry

structure ProtectedInitialHeader where
  dstCid : ConnectionId
  srcCid : ConnectionId
  tokenStart : Nat
  tokenEnd : Nat
  len : Nat
  version : UInt32
  deriving DecidableEq

inductive ProtectedHeader where
  | initial (header : ProtectedInitialHeader)
  | long (ty : LongType) (dstCid srcCid : ConnectionId) (len : Nat) (version : UInt32)
  | retry (dstCid srcCid : ConnectionId) (version : UInt32)
  | short (spin : Bool) (dstCid : ConnectionId)
  | versionNegotiate (random : UInt8) (dstCid srcCid : ConnectionId)
  deriving DecidableEq

def ProtectedHeader.dstCid : ProtectedHeader → ConnectionId
  | .initial header => header.dstCid
  | .long _ dstCid _ _ _ => dstCid
  | .retry dstCid _ _ => dstCid
  | .short _ dstCid => dstCid
  | .versionNegotiate _ dstCid _ => dstCid

def ProtectedHeader.isInitial : ProtectedHeader → Bool
  | .initial _ => true
  | _ => false

def ProtectedHeader.is0rtt : ProtectedHeader → Bool
  | .long ty _ _ _ _ => ty == .zeroRtt
  | _ => false

/-- The fields of a long header that follow both connection IDs.  `total` is the
size of the datagram, from which the position of the token is measured. -/
def decodeLongFields (first : UInt8) (version : UInt32) (dstCid srcCid : ConnectionId)
    (total : Nat) (buf : List UInt8) :
    Except PacketDecodeError (ProtectedHeader × List UInt8) :=
  match LongHeaderType.fromByte first with
  | .initial => do
    let (tokenLen, buf) ← orUnexpectedEnd (getVar buf)
    let tokenStart := total - buf.length
    if buf.length < tokenLen then
      throw (.invalidHeader "token out of bounds")
    else
      let (len, buf) ← orUnexpectedEnd (getVar (buf.drop tokenLen))
      return (.initial ⟨dstCid, srcCid, tokenStart, tokenStart + tokenLen, len, version⟩, buf)
  | .retry => return (.retry dstCid srcCid version, buf)
  | .standard ty => do
    let (len, buf) ← orUnexpectedEnd (getVar buf)
    return (.long ty dstCid srcCid len version, buf)

def ProtectedHeader.decode (data : List UInt8) (cidParser : ConnectionIdParser)
    (supportedVersions : List UInt32) (greaseQuicBit : Bool) :
    Except PacketDecodeError (ProtectedHeader × List UInt8) := do
  let (first, buf) ← orUnexpectedEnd (getU8 data)
  if !greaseQuicBit && first &&& fixedBit == 0 then
    throw (.invalidHeader "fixed bit unset")
  else if first &&& longHeaderForm == 0 then
    let (dstCid, buf) ← cidParser buf
    return (.short (first &&& spinBit != 0) dstCid, buf)
  else
    let (version, buf) ← orUnexpectedEnd (getU32 buf)
    let (dstCid, buf) ← orMalformedCid (ConnectionId.decodeLong buf)
    let (srcCid, buf) ← orMalformedCid (ConnectionId.decodeLong buf)
    if version = 0 then
      return (.versionNegotiate (first &&& ~~~longHeaderForm) dstCid srcCid, buf)
    else if !supportedVersions.contains version then
      throw (.unsupportedVersion srcCid dstCid version)
    else
      decodeLongFields first version dstCid srcCid data.length buf

theorem orUnexpectedEnd_eq_ok {α : Type} {x : Except UnexpectedEnd α} {a : α}
    (h : orUnexpectedEnd x = .ok a) : x = .ok a := by
  cases x with
  | error => simp [orUnexpectedEnd] at h
  | ok => simpa [orUnexpectedEnd] using h

theorem orMalformedCid_eq_ok {α : Type} {x : Option α} {a : α}
    (h : orMalformedCid x = .ok a) : x = some a := by
  cases x with
  | none => simp [orMalformedCid] at h
  | some => simpa [orMalformedCid] using h

/-- A decoded header has either the short form, with the ID the parser found
right after the first byte, or the long form, with the ID that follows the
version field. -/
theorem decode_dstCid {data rest : List UInt8} {cidParser : ConnectionIdParser}
    {supportedVersions : List UInt32} {greaseQuicBit : Bool} {header : ProtectedHeader}
    (h : ProtectedHeader.decode data cidParser supportedVersions greaseQuicBit =
      .ok (header, rest)) :
    ∃ first buf, data = first :: buf ∧
      ((first &&& longHeaderForm = 0 ∧ ∃ tail, cidParser buf = .ok (header.dstCid, tail)) ∨
        (first &&& longHeaderForm ≠ 0 ∧ 4 ≤ buf.length ∧
          ∃ tail, ConnectionId.decodeLong (buf.drop 4) = some (header.dstCid, tail))) := by
  obtain ⟨⟨first, buf⟩, hfirst, h⟩ := bind_eq_ok h
  refine ⟨first, buf, getU8_eq_ok (orUnexpectedEnd_eq_ok hfirst), ?_⟩
  dsimp only at h
  split at h
  · cases h
  split at h
  · rename_i _ hform
    left
    obtain ⟨⟨dstCid, tail⟩, hparse, h⟩ := bind_eq_ok h
    cases h
    exact ⟨by simpa using hform, tail, hparse⟩
  · rename_i _ hform
    right
    obtain ⟨⟨_, _⟩, hversion, h⟩ := bind_eq_ok h
    obtain ⟨⟨dstCid, afterDst⟩, hdst, h⟩ := bind_eq_ok h
    obtain ⟨⟨_, _⟩, _, h⟩ := bind_eq_ok h
    obtain ⟨hlen, rfl⟩ := getU32_eq_ok (orUnexpectedEnd_eq_ok hversion)
    have hcid : header.dstCid = dstCid := by
      split at h
      · cases h
        rfl
      split at h
      · cases h
      unfold decodeLongFields at h
      split at h
      · obtain ⟨⟨_, _⟩, -, h⟩ := bind_eq_ok h
        dsimp only at h
        split at h
        · cases h
        · obtain ⟨⟨len, tail⟩, -, h⟩ := bind_eq_ok h
          cases h
          rfl
      · cases h
        rfl
      · obtain ⟨⟨_, _⟩, -, h⟩ := bind_eq_ok h
        cases h
        rfl
    rw [hcid]
    exact ⟨by simpa using hform, hlen, afterDst, orMalformedCid_eq_ok hdst⟩

end Quac.Packet
