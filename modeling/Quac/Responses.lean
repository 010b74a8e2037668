import Quac.CloseFrames
import Quac.Lib.Slabs
import Quac.Packet

/-!
What an endpoint does with a datagram itself: it negotiates versions, resets connections it
does not know and refuses or announces new ones.

What the tables of local IDs, addresses and reset tokens hold, random draws and the results
of cryptography are inputs.
-/

namespace Quac.Responses

open Cid CloseFrames Coding Frames Function Identifiers Lib.BigEndian Lib.Slabs Packet

def minInitialSize : Nat := 1200

def initialMtu : Nat := 1200

/-- `tag_len` of every AEAD of QUIC. -/
def tagLen : Nat := 16

def minPaddingLen : Nat := 5

def idealMinPaddingLen : Nat := minPaddingLen + maxCidSize

structure ServerConfig where
  maxIncoming : Nat
  incomingBufferSize : Nat
  incomingBufferSizeTotal : Nat

structure IncomingBuffer where
  datagrams : List Bytes
  totalBytes : Nat

inductive RouteDatagramTo
  | incoming (idx : Nat)
  | connection (ch : Nat)

structure Endpoint where
  supportedVersions : List UInt32
  greaseQuicBit : Bool
  minResetInterval : Nat
  cidLen : Nat
  cidLen_le : cidLen ≤ maxCidSize
  serverConfig : Option ServerConfig
  connectionIdsInitial : ConnectionId → Option RouteDatagramTo
  lastStatelessReset : Option Nat
  incomingBuffers : Slab IncomingBuffer
  allIncomingBuffersTotalBytes : Nat

structure Received where
  now : Nat
  data : Bytes
  random : UInt8
  paddingDraw : Nat
  /-- The entry of `connection_ids` for the destination ID. -/
  localCid : Option Nat
  /-- The connection that the address or the last bytes belong to. -/
  remote : Option Nat
  validCid : Bool
  /-- What `generate_cid` returns. -/
  newCid : ConnectionId
  cidsExhausted : Bool
  initialKeys : Bool
  /-- Header protection can be removed and the reserved bits are valid. -/
  finishes : Bool
  /-- Whether the token still allows a Retry; nothing stands for an invalid token. -/
  mayRetry : Option Bool

structure Incoming where
  dstCid : ConnectionId
  incomingIdx : Nat
  mayRetry : Bool

inductive Response
  | versionNegotiation
  | statelessReset
  | close
deriving DecidableEq

inductive DatagramEvent
  | forConnection (ch : Nat)
  | newConnection (incoming : Incoming)
  | response (kind : Response) (size : Nat)

def payloadLen : ProtectedHeader → Option Nat
  | .initial header => some header.len
  | .long _ _ _ len _ => some len
  | _ => none

namespace Endpoint

/-- `PartialDecode::new`. -/
def partialDecode (e : Endpoint) (data : Bytes) : Except PacketDecodeError ProtectedHeader := do
  let (header, rest) ← ProtectedHeader.decode data
    (fixedLengthConnectionIdParser e.cidLen e.cidLen_le) e.supportedVersions e.greaseQuicBit
  let packetLen := ((payloadLen header).map (data.length - rest.length + ·)).getD data.length
  if data.length < packetLen then
    throw (.invalidHeader "packet too short to contain payload length")
  else return header

def versionNegotiate (e : Endpoint) (random : UInt8) (srcCid dstCid : ConnectionId)
    (version : UInt32) : Bytes :=
  let grease : Nat := if version = 0x0a1a2a3a then 0x0a1a2a4a else 0x0a1a2a3a
  (0x80 ||| random ||| 0x40) :: toBeBytes 4 0 ++ srcCid.encodeLong ++ dstCid.encodeLong ++
    toBeBytes 4 grease ++ e.supportedVersions.flatMap fun version => toBeBytes 4 version.toNat

def statelessReset (e : Endpoint) (r : Received) : Option DatagramEvent × Endpoint :=
  let headroom := r.data.length - resetTokenSize
  if e.lastStatelessReset.any fun last => r.now < last + e.minResetInterval then (none, e)
  else if headroom ≤ minPaddingLen then (none, e)
  else
    let maxPaddingLen := headroom - 1
    let paddingLen :=
      if maxPaddingLen ≤ idealMinPaddingLen then maxPaddingLen
      else idealMinPaddingLen + r.paddingDraw % (maxPaddingLen - idealMinPaddingLen)
    (some (.response .statelessReset (paddingLen + resetTokenSize)),
      { e with lastStatelessReset := some r.now })

/-- The header of the packet that refuses a connection; its number takes one byte. -/
def initialHeader (remoteId localId : ConnectionId) (version : UInt32) : Bytes :=
  0xc0 :: toBeBytes 4 version.toNat ++ remoteId.encodeLong ++ localId.encodeLong ++ putVar 0 ++
    toBeBytes 2 0 ++ [0]

def initialClose (header : ProtectedInitialHeader) (localId : ConnectionId)
    (reason : ConnectionClose) : Option DatagramEvent :=
  let headerLen := (initialHeader header.srcCid localId header.version).length
  let frame := reason.encode (initialMtu - headerLen - tagLen)
  some (.response .close (headerLen + frame.length + tagLen))

def earlyValidateFirstPacket (e : Endpoint) (config : ServerConfig) (cidsExhausted : Bool)
    (header : ProtectedInitialHeader) : Option ConnectionClose :=
  let len := header.dstCid.bytes.length
  if cidsExhausted || config.maxIncoming ≤ e.incomingBuffers.keys.length then
    some ⟨0x2, none, []⟩
  else if len < 8 && (header.tokenStart = header.tokenEnd || len != e.cidLen) then
    some ⟨0xa, none, "invalid destination CID length".toUTF8.toList⟩
  else none

def insertInitialIncoming (e : Endpoint) (dstCid : ConnectionId) (idx : Nat) : Endpoint :=
  if dstCid.bytes.isEmpty then e
  else { e with
    connectionIdsInitial := update e.connectionIdsInitial dstCid (some (.incoming idx)) }

def handleFirstPacket (e : Endpoint) (r : Received) (header : ProtectedInitialHeader) :
    Option DatagramEvent × Endpoint :=
  match e.serverConfig with
  | none => e.statelessReset r
  | some config =>
    if r.data.length < minInitialSize then (none, e)
    else if !r.initialKeys then (none, e)
    else match e.earlyValidateFirstPacket config r.cidsExhausted header with
    | some reason => (initialClose header r.newCid reason, e)
    | none =>
      if !r.finishes then (none, e)
      else match r.mayRetry with
      | none => (initialClose header r.newCid ⟨0xb, none, []⟩, e)
      | some mayRetry =>
        let idx := e.incomingBuffers.vacantKey
        let e := { e with incomingBuffers := e.incomingBuffers.insert ⟨[], 0⟩ }
        (some (.newConnection ⟨header.dstCid, idx, mayRetry⟩),
          e.insertInitialIncoming header.dstCid idx)

/-- A datagram for a connection that is not accepted yet; without a configuration or a buffer
the code panics. -/
def buffer (e : Endpoint) (idx : Nat) (data : Bytes) : Option Endpoint := do
  let buffer ← e.incomingBuffers.get idx
  let config ← e.serverConfig
  let totalBytes := buffer.totalBytes + data.length
  let allBytes := e.allIncomingBuffersTotalBytes + data.length
  if totalBytes ≤ config.incomingBufferSize ∧ allBytes ≤ config.incomingBufferSizeTotal then
    return { e with
      incomingBuffers := e.incomingBuffers.set idx ⟨buffer.datagrams ++ [data], totalBytes⟩
      allIncomingBuffersTotalBytes := allBytes }
  else return e

/-- `ConnectionIndex::get`. -/
def route (e : Endpoint) (r : Received) (header : ProtectedHeader) : Option RouteDatagramTo :=
  (if header.dstCid.bytes.isEmpty then none else r.localCid.map .connection) <|>
    (if header.isInitial || header.is0rtt then e.connectionIdsInitial header.dstCid else none) <|>
    r.remote.map .connection

/-- `handle`; the result is missing where the code panics. -/
def handle (e : Endpoint) (r : Received) : Option (Option DatagramEvent × Endpoint) :=
  match e.partialDecode r.data with
  | .error (.unsupportedVersion srcCid dstCid version) =>
    if e.serverConfig.isNone then some (none, e)
    else
      let response := e.versionNegotiate r.random srcCid dstCid version
      some (some (.response .versionNegotiation response.length), e)
  | .error (.invalidHeader _) => some (none, e)
  | .ok header =>
    match e.route r header, header with
    | some (.incoming idx), _ => (e.buffer idx r.data).map fun e => (none, e)
    | some (.connection ch), _ => some (some (.forConnection ch), e)
    | none, .initial header => some (e.handleFirstPacket r header)
    | none, .short _ dstCid =>
      if !r.validCid || dstCid.bytes.isEmpty then some (none, e) else some (e.statelessReset r)
    | none, _ => some (none, e)

end Endpoint

open Endpoint List

variable {e e' : Endpoint} {r : Received} {kind : Response} {size : Nat}

theorem length_encodeLong (cid : ConnectionId) : cid.encodeLong.length = 1 + cid.bytes.length := by
  rw [ConnectionId.encodeLong, length_cons, Nat.add_comm]

theorem length_versionNegotiate (e : Endpoint) (random : UInt8) (srcCid dstCid : ConnectionId)
    (version : UInt32) : (e.versionNegotiate random srcCid dstCid version).length =
      11 + srcCid.bytes.length + dstCid.bytes.length + 4 * e.supportedVersions.length := by
  simp only [versionNegotiate, length_append, length_cons, toBeBytes_length,
    length_encodeLong, length_flatMap, map_const', sum_replicate_nat]
  omega

theorem length_initialHeader_le (remoteId localId : ConnectionId) (version : UInt32) :
    (initialHeader remoteId localId version).length ≤ 51 := by
  have hremote : remoteId.bytes.length ≤ 20 := remoteId.length_le
  have hlocal : localId.bytes.length ≤ 20 := localId.length_le
  have hvar : (putVar 0).length = 1 := rfl
  simp only [initialHeader, length_append, length_cons, toBeBytes_length,
    length_encodeLong, hvar, length_nil]
  omega

def Bounded (n : Nat) (kind : Response) (size : Nat) : Prop :=
  size ≤ 3 * n ∧ (kind = .statelessReset → size < n)

theorem statelessReset_bounded (h : (e.statelessReset r).1 = some (.response kind size)) :
    Bounded r.data.length kind size := by
  have hlt : size < r.data.length := by
    unfold statelessReset at h
    dsimp only at h
    split_ifs at h with _ hroom hideal
    · cases h
      omega
    · cases h
      have hdraw := Nat.mod_lt r.paddingDraw (Nat.sub_pos_of_lt (Nat.lt_of_not_le hideal))
      omega
  exact ⟨by omega, fun _ => hlt⟩

/-- The packet is written with the budget of the smallest path, to a client that sent as
much. -/
theorem initialClose_bounded {header : ProtectedInitialHeader} {reason : ConnectionClose}
    (hlen : minInitialSize ≤ r.data.length)
    (h : initialClose header r.newCid reason = some (.response kind size)) :
    Bounded r.data.length kind size := by
  cases h
  have hheader := length_initialHeader_le header.srcCid r.newCid header.version
  have hframe := length_encode_le (.connection reason) (initialMtu -
    (initialHeader header.srcCid r.newCid header.version).length - tagLen)
  simp only [encode, initialMtu, minInitialSize, tagLen] at hframe hlen ⊢
  exact ⟨by omega, by rintro ⟨⟩⟩

theorem handleFirstPacket_bounded {header : ProtectedInitialHeader}
    (h : (e.handleFirstPacket r header).1 = some (.response kind size)) :
    Bounded r.data.length kind size := by
  unfold handleFirstPacket at h
  split at h
  · exact statelessReset_bounded h
  split at h
  · cases h
  rename_i hlen
  split at h
  · cases h
  split at h
  · exact initialClose_bounded (not_lt.mp hlen) h
  split at h
  · cases h
  split at h
  · exact initialClose_bounded (not_lt.mp hlen) h
  · cases h

theorem handle_bounded {header : ProtectedHeader} (hheader : e.partialDecode r.data = .ok header)
    (h : e.handle r = some (some (.response kind size), e')) : Bounded r.data.length kind size := by
  simp only [handle, hheader] at h
  split at h
  · obtain ⟨_, -, h⟩ := Option.map_eq_some_iff.mp h
    cases h
  · cases h
  · exact handleFirstPacket_bounded (congrArg Prod.fst (Option.some.inj h))
  · split_ifs at h
    · cases h
    · exact statelessReset_bounded (congrArg Prod.fst (Option.some.inj h))
  · cases h

/-- The versions listed for a datagram of an unknown version fit three times its size. -/
def Roomy (e : Endpoint) (data : Bytes) : Prop :=
  ∀ srcCid dstCid version,
    e.partialDecode data = .error (.unsupportedVersion srcCid dstCid version) →
    11 + srcCid.bytes.length + dstCid.bytes.length + 4 * e.supportedVersions.length ≤
      3 * data.length

/-- A response has at most three times the size of the datagram, and a stateless reset is
shorter than it, unless many versions are listed for a short datagram. -/
theorem response_bounded_iff (h : e.handle r = some (some (.response kind size), e')) :
    size ≤ 3 * r.data.length ∧ (kind = .statelessReset → size < r.data.length) ↔
      Roomy e r.data := by
  rcases hdecode : e.partialDecode r.data with (⟨srcCid, dstCid, version⟩ | _) | _
  · simp only [handle, hdecode] at h
    split at h
    · cases h
    cases h
    rw [length_versionNegotiate]
    constructor
    · intro hbounded srcCid' dstCid' version' hdecode'
      cases hdecode.symm.trans hdecode'
      exact hbounded.1
    · exact fun hroomy => ⟨hroomy srcCid dstCid version hdecode, by rintro ⟨⟩⟩
  · simp [handle, hdecode] at h
  · exact iff_of_true (handle_bounded hdecode h) fun _ _ _ h => by cases hdecode.symm.trans h

/-- A server with the default versions. -/
def server (maxIncoming : Nat) : Endpoint where
  supportedVersions := [1, 0xff00001d, 0xff00001e, 0xff00001f, 0xff000020, 0xff000021, 0xff000022]
  greaseQuicBit := true
  minResetInterval := 20
  cidLen := 8
  cidLen_le := by decide
  serverConfig := some ⟨maxIncoming, 100, 1000⟩
  connectionIdsInitial _ := none
  lastStatelessReset := none
  incomingBuffers := .empty
  allIncomingBuffersTotalBytes := 0

def receive (data : Bytes) : Received where
  now := 0
  data := data
  random := 0
  paddingDraw := 0
  localCid := none
  remote := none
  validCid := true
  newCid := ⟨[], by decide⟩
  cidsExhausted := false
  initialKeys := true
  finishes := true
  mayRetry := some true

theorem short_packet_reset : ∃ e', (server 1).handle (receive (List.replicate 30 0)) =
      some (some (.response .statelessReset 29), e') ∧ Roomy (server 1) (List.replicate 30 0) :=
  ⟨_, rfl, (response_bounded_iff (r := receive (replicate 30 0)) rfl).mp
    ⟨by decide, by decide⟩⟩

/-- Seven bytes of an unknown version are answered with thirty-nine. -/
theorem unknown_version_amplified : ∃ e',
    (server 1).handle (receive [0xc0, 0, 0, 0, 5, 0, 0]) =
      some (some (.response .versionNegotiation 39), e') ∧ ¬ 39 ≤ 3 * 7 :=
  ⟨_, rfl, by decide⟩

end Quac.Responses
