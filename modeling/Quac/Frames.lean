import Quac.Cid
import Quac.RecvHalf
import Quac.SendHalf

/-!
The frames of a packet, `frame.rs`: how each kind is written, and the iterator that takes the
payload of a packet apart.
-/

namespace Quac.Frames

open Cid Coding Identifiers Lib.Parsing RecvHalf SendHalf

abbrev FrameType := Nat

namespace FrameType

@[match_pattern] abbrev padding : FrameType := 0x00

@[match_pattern] abbrev ping : FrameType := 0x01

@[match_pattern] abbrev ack : FrameType := 0x02

@[match_pattern] abbrev ackEcn : FrameType := 0x03

@[match_pattern] abbrev resetStream : FrameType := 0x04

@[match_pattern] abbrev stopSending : FrameType := 0x05

@[match_pattern] abbrev crypto : FrameType := 0x06

@[match_pattern] abbrev newToken : FrameType := 0x07

@[match_pattern] abbrev maxData : FrameType := 0x10

@[match_pattern] abbrev maxStreamData : FrameType := 0x11

@[match_pattern] abbrev maxStreamsBidi : FrameType := 0x12

@[match_pattern] abbrev maxStreamsUni : FrameType := 0x13

@[match_pattern] abbrev dataBlocked : FrameType := 0x14

@[match_pattern] abbrev streamDataBlocked : FrameType := 0x15

@[match_pattern] abbrev streamsBlockedBidi : FrameType := 0x16

@[match_pattern] abbrev streamsBlockedUni : FrameType := 0x17

@[match_pattern] abbrev newConnectionId : FrameType := 0x18

@[match_pattern] abbrev retireConnectionId : FrameType := 0x19

@[match_pattern] abbrev pathChallenge : FrameType := 0x1a

@[match_pattern] abbrev pathResponse : FrameType := 0x1b

@[match_pattern] abbrev connectionClose : FrameType := 0x1c

@[match_pattern] abbrev applicationClose : FrameType := 0x1d

@[match_pattern] abbrev handshakeDone : FrameType := 0x1e

@[match_pattern] abbrev immediateAck : FrameType := 0x1f

@[match_pattern] abbrev ackFrequency : FrameType := 0xaf

/-- The first of `STREAM_TYS`; the other seven differ from it in the three low bits. -/
def streamStart : FrameType := 0x08

/-- The first of `DATAGRAM_TYS`; the other one differs from it in the lowest bit. -/
def datagramStart : FrameType := 0x30

end FrameType

structure ResetStream where
  id : StreamId
  errorCode : Nat
  finalOffset : Nat

structure StopSending where
  id : StreamId
  errorCode : Nat

structure Crypto where
  offset : Nat
  data : Bytes

structure NewToken where
  token : Bytes

def resetTokenSize : Nat := 16

structure NewConnectionId where
  sequence : Nat
  retirePriorTo : Nat
  id : ConnectionId
  resetToken : Octets resetTokenSize

structure Datagram where
  data : Bytes

structure AckFrequency where
  sequence : Nat
  ackElicitingThreshold : Nat
  requestMaxAckDelay : Nat
  reorderingThreshold : Nat

structure ConnectionClose where
  errorCode : Nat
  /-- Type of frame that caused the close. -/
  frameType : Option FrameType
  reason : Bytes

structure ApplicationClose where
  errorCode : Nat
  reason : Bytes

inductive Close
  | connection (x : ConnectionClose)
  | application (x : ApplicationClose)

structure EcnCounts where
  ect0 : Nat
  ect1 : Nat
  ce : Nat

structure Ack where
  largest : Nat
  delay : Nat
  /-- The blocks and the gaps between them, still encoded. -/
  additional : Bytes
  ecn : Option EcnCounts

inductive Frame
  | padding
  | ping
  | ack (x : Ack)
  | resetStream (x : ResetStream)
  | stopSending (x : StopSending)
  | crypto (x : Crypto)
  | newToken (x : NewToken)
  | stream (x : StreamFrame)
  | maxData (limit : Nat)
  | maxStreamData (id : StreamId) (offset : Nat)
  | maxStreams (dir : Dir) (count : Nat)
  | dataBlocked (offset : Nat)
  | streamDataBlocked (id : StreamId) (offset : Nat)
  | streamsBlocked (dir : Dir) (limit : Nat)
  | newConnectionId (x : NewConnectionId)
  | retireConnectionId (sequence : Nat)
  | pathChallenge (token : UInt64)
  | pathResponse (token : UInt64)
  | close (x : Close)
  | datagram (x : Datagram)
  | ackFrequency (x : AckFrequency)
  | immediateAck
  | handshakeDone

def ResetStream.encode (x : ResetStream) : Bytes :=
  putVar FrameType.resetStream ++ putVar x.id.toNat ++ putVar x.errorCode ++ putVar x.finalOffset

def StopSending.encode (x : StopSending) : Bytes :=
  putVar FrameType.stopSending ++ putVar x.id.toNat ++ putVar x.errorCode

def Crypto.encode (x : Crypto) : Bytes :=
  putVar FrameType.crypto ++ putVar x.offset ++ putVar x.data.length ++ x.data

def NewToken.encode (x : NewToken) : Bytes :=
  putVar FrameType.newToken ++ putVar x.token.length ++ x.token

def NewConnectionId.encode (x : NewConnectionId) : Bytes :=
  putVar FrameType.newConnectionId ++ putVar x.sequence ++ putVar x.retirePriorTo ++
    [UInt8.ofNat x.id.bytes.length] ++ x.id.bytes ++ x.resetToken.1

def Datagram.encode (x : Datagram) (length : Bool) : Bytes :=
  putVar (FrameType.datagramStart ||| length.toNat) ++
    (if length then putVar x.data.length else []) ++ x.data

def AckFrequency.encode (x : AckFrequency) : Bytes :=
  putVar FrameType.ackFrequency ++ putVar x.sequence ++ putVar x.ackElicitingThreshold ++
    putVar x.requestMaxAckDelay ++ putVar x.reorderingThreshold

/-- The reason is cut off where the frame would exceed `maxLen`. -/
def ConnectionClose.encode (x : ConnectionClose) (maxLen : Nat) : Bytes :=
  let ty := x.frameType.getD 0
  let maxLen := maxLen - 3 - varIntSize ty - varIntSize x.reason.length
  let actualLen := x.reason.length.min maxLen
  putVar FrameType.connectionClose ++ putVar x.errorCode ++ putVar ty ++ putVar actualLen ++
    x.reason.take actualLen

def ApplicationClose.encode (x : ApplicationClose) (maxLen : Nat) : Bytes :=
  let maxLen := maxLen - 3 - varIntSize x.reason.length
  let actualLen := x.reason.length.min maxLen
  putVar FrameType.applicationClose ++ putVar x.errorCode ++ putVar actualLen ++
    x.reason.take actualLen

/-- The type of a STREAM frame says whether there is an offset, a length and a FIN. -/
def streamType (off length fin : Bool) : FrameType :=
  let ty := FrameType.streamStart
  let ty := if off then ty ||| 0x04 else ty
  let ty := if length then ty ||| 0x02 else ty
  if fin then ty ||| 0x01 else ty

/-- `StreamMeta::encode`; the data follows. -/
def encodeMeta (x : StreamMeta) (length : Bool) : Bytes :=
  putVar (streamType (x.start != 0) length x.fin) ++ putVar x.id.toNat ++
    (if x.start ≠ 0 then putVar x.start else []) ++
    (if length then putVar (x.stop - x.start) else [])

def EcnCounts.encode (x : EcnCounts) : Bytes :=
  putVar x.ect0 ++ (putVar x.ect1 ++ putVar x.ce)

inductive IterErr
  | unexpectedEnd
  | invalidFrameId
  | malformed

def IterErr.reason : IterErr → String
  | .unexpectedEnd => "unexpected end"
  | .invalidFrameId => "invalid frame ID"
  | .malformed => "malformed"

/-- Why a frame is not returned; a panic is the failure of an access that the source leaves
to the bounds check of a slice. -/
inductive Stop
  | err (e : IterErr)
  | panic

abbrev Decoder (α : Type) : Type := Parser UInt8 Stop α

/-- The conversion behind `?` on a read past the end. -/
def orUnexpectedEnd {α : Type} (p : Parser UInt8 UnexpectedEnd α) : Decoder α :=
  mapError (fun _ => .err .unexpectedEnd) p

/-- `get_var`, and `get` of a number. -/
def var : Decoder Nat :=
  orUnexpectedEnd getVar

def streamId : Decoder StreamId := do
  let x ← var
  return .ofNat x

def remaining : Decoder Nat := fun bytes => .ok (bytes.length, bytes)

/-- `split_to` and `copy_to_slice`. -/
def splitTo (n : Nat) : Decoder Bytes := fun bytes =>
  if n ≤ bytes.length then .ok (bytes.take n, bytes.drop n) else .error .panic

def takeLen : Decoder Bytes := do
  let len ← var
  let left ← remaining
  if left < len then throw (.err .unexpectedEnd) else splitTo len

def takeRemaining : Decoder Bytes := fun bytes => .ok (bytes, [])

/-- The loop of `scan_ack_blocks` over `n` gaps with the blocks that follow them. -/
def scanBlocks : Nat → Nat → Decoder Unit
  | 0, _ => pure ()
  | n + 1, smallest => do
    let gap ← var
    if smallest < gap + 2 then throw (.err .malformed)
    else
      let block ← var
      if smallest - (gap + 2) < block then throw (.err .malformed)
      else scanBlocks n (smallest - (gap + 2) - block)

def scanAll (largest n : Nat) : Decoder Unit := do
  let firstBlock ← var
  if largest < firstBlock then throw (.err .malformed)
  else scanBlocks n (largest - firstBlock)

/-- Validate the blocks at the front of the buffer and return the number of bytes they
cover. -/
def scanAckBlocks (largest n : Nat) : Decoder Nat := fun buf =>
  match scanAll largest n buf with
  | .ok (_, rest) => .ok (buf.length - rest.length, buf)
  | .error e => .error e

def decodeEcnCounts : Decoder EcnCounts := do
  let ect0 ← var
  let ect1 ← var
  let ce ← var
  return ⟨ect0, ect1, ce⟩

def decodeAck (ty : FrameType) : Decoder Frame := do
  let largest ← var
  let delay ← var
  let extraBlocks ← var
  let n ← scanAckBlocks largest extraBlocks
  let additional ← splitTo n
  if ty ≠ FrameType.ackEcn then return .ack ⟨largest, delay, additional, none⟩
  else
    let ecn ← decodeEcnCounts
    return .ack ⟨largest, delay, additional, some ecn⟩

/-- `ConnectionId::new`, which asserts that the bytes fit. -/
def newCid (bytes : Bytes) : Decoder ConnectionId :=
  if h : bytes.length ≤ maxCidSize then pure ⟨bytes, h⟩ else throw .panic

def decodeNewConnectionId : Decoder Frame := do
  let sequence ← var
  let retirePriorTo ← var
  if sequence < retirePriorTo then throw (.err .malformed)
  else
    let length ← orUnexpectedEnd getU8
    if maxCidSize < length.toNat ∨ length.toNat = 0 then throw (.err .malformed)
    else
      let left ← remaining
      if left < length.toNat then throw (.err .unexpectedEnd)
      else
        let stage ← splitTo length.toNat
        let id ← newCid stage
        let left ← remaining
        if left < resetTokenSize then throw (.err .unexpectedEnd)
        else
          let resetToken ← mapError (fun _ => .panic) (getOctets resetTokenSize)
          return .newConnectionId ⟨sequence, retirePriorTo, id, resetToken⟩

/-- The offset of a STREAM frame, zero unless its type announces one. -/
def takeOffset (off : Bool) : Decoder Nat :=
  if off then var else pure 0

/-- Data up to its length, or up to the end of the packet. -/
def takeData (len : Bool) : Decoder Bytes :=
  if len then takeLen else takeRemaining

/-- The frames whose type is not a constant. -/
def decodeRanged (ty : FrameType) : Decoder Frame :=
  if 0x08 ≤ ty ∧ ty ≤ 0x0f then do
    let id ← streamId
    let offset ← takeOffset (ty &&& 0x04 != 0)
    let data ← takeData (ty &&& 0x02 != 0)
    return .stream ⟨id, offset, ty &&& 0x01 != 0, data⟩
  else if 0x30 ≤ ty ∧ ty ≤ 0x31 then do
    let data ← takeData (ty &&& 0x01 != 0)
    return .datagram ⟨data⟩
  else throw (.err .invalidFrameId)

/-- What `try_next` does once it has the type of the frame. -/
def decodeFrame (ty : FrameType) : Decoder Frame :=
  match ty with
  | FrameType.padding => return .padding
  | FrameType.resetStream => do
    let id ← streamId
    let errorCode ← var
    let finalOffset ← var
    return .resetStream ⟨id, errorCode, finalOffset⟩
  | FrameType.connectionClose => do
    let errorCode ← var
    let x ← var
    let reason ← takeLen
    return .close (.connection ⟨errorCode, if x = 0 then none else some x, reason⟩)
  | FrameType.applicationClose => do
    let errorCode ← var
    let reason ← takeLen
    return .close (.application ⟨errorCode, reason⟩)
  | FrameType.maxData => do
    let limit ← var
    return .maxData limit
  | FrameType.maxStreamData => do
    let id ← streamId
    let offset ← var
    return .maxStreamData id offset
  | FrameType.maxStreamsBidi => do
    let count ← var
    return .maxStreams .bi count
  | FrameType.maxStreamsUni => do
    let count ← var
    return .maxStreams .uni count
  | FrameType.ping => return .ping
  | FrameType.dataBlocked => do
    let offset ← var
    return .dataBlocked offset
  | FrameType.streamDataBlocked => do
    let id ← streamId
    let offset ← var
    return .streamDataBlocked id offset
  | FrameType.streamsBlockedBidi => do
    let limit ← var
    return .streamsBlocked .bi limit
  | FrameType.streamsBlockedUni => do
    let limit ← var
    return .streamsBlocked .uni limit
  | FrameType.stopSending => do
    let id ← streamId
    let errorCode ← var
    return .stopSending ⟨id, errorCode⟩
  | FrameType.retireConnectionId => do
    let sequence ← var
    return .retireConnectionId sequence
  | FrameType.ack => decodeAck FrameType.ack
  | FrameType.ackEcn => decodeAck FrameType.ackEcn
  | FrameType.pathChallenge => do
    let token ← orUnexpectedEnd getU64
    return .pathChallenge token
  | FrameType.pathResponse => do
    let token ← orUnexpectedEnd getU64
    return .pathResponse token
  | FrameType.newConnectionId => decodeNewConnectionId
  | FrameType.crypto => do
    let offset ← var
    let data ← takeLen
    return .crypto ⟨offset, data⟩
  | FrameType.newToken => do
    let token ← takeLen
    return .newToken ⟨token⟩
  | FrameType.handshakeDone => return .handshakeDone
  | FrameType.ackFrequency => do
    let sequence ← var
    let ackElicitingThreshold ← var
    let requestMaxAckDelay ← var
    let reorderingThreshold ← var
    return .ackFrequency
      ⟨sequence, ackElicitingThreshold, requestMaxAckDelay, reorderingThreshold⟩
  | FrameType.immediateAck => return .immediateAck
  | ty => decodeRanged ty

structure InvalidFrame where
  ty : Option FrameType
  reason : String

structure Iter where
  bytes : Bytes
  lastTy : Option FrameType

abbrev Item : Type := Except InvalidFrame Frame

def Iter.new (payload : Bytes) : Except TransportError Iter :=
  if payload.isEmpty then .error ⟨.protocolViolation, "packet payload is empty"⟩
  else .ok ⟨payload, none⟩

/-- `try_next`, with the new `last_ty` of the iterator. -/
def Iter.tryNext (it : Iter) : Except Stop (Frame × Bytes) × Option FrameType :=
  match var it.bytes with
  | .error e => (.error e, it.lastTy)
  | .ok (ty, rest) => (decodeFrame ty rest, some ty)

/-- `next`; the result is `none` where the source panics. -/
def Iter.next (it : Iter) : Option (Option Item × Iter) :=
  if it.bytes.isEmpty then some (none, it)
  else
    match it.tryNext with
    | (.ok (frame, rest), lastTy) => some (some (.ok frame), ⟨rest, lastTy⟩)
    -- Corrupt frame: skip it and everything that follows.
    | (.error (.err e), lastTy) => some (some (.error ⟨lastTy, e.reason⟩), ⟨[], lastTy⟩)
    | (.error .panic, _) => none

/-- Call `next` at most `fuel` times, until there are no more items; `none` where it panics or
there are more. -/
def Iter.itemsWithin : Nat → Iter → Option (List Item)
  | 0, _ => none
  | fuel + 1, it =>
    match it.next with
    | none => none
    | some (none, _) => some []
    | some (some item, it') => (item :: ·) <$> it'.itemsWithin fuel

/-- All items of the iterator, which has at most one for each byte. -/
def Iter.items (it : Iter) : Option (List Item) :=
  it.itemsWithin (it.bytes.length + 1)

end Quac.Frames
