import Quac.Cid
import Quac.TokenLog

/-!
Address validation tokens: their encoding, the Retry packet that carries one to
a client, and the check of the token that a client's Initial packet brings back.
-/

namespace Quac.AddressToken

open Cid Coding Lib.BigEndian Lib.WallClock TokenLog List

inductive IpAddr
  | v4 (octets : Octets 4)
  | v6 (octets : Octets 16)
  deriving DecidableEq

inductive SocketAddr
  | v4 (ip : Octets 4) (port : UInt16)
  | v6 (ip : Octets 16) (port : UInt16) (flowinfo scopeId : UInt32)
  deriving DecidableEq

namespace SocketAddr

def new (ip : IpAddr) (port : UInt16) : SocketAddr :=
  match ip with
  | .v4 octets => .v4 octets port
  | .v6 octets => .v6 octets port 0 0

def ip : SocketAddr → IpAddr
  | .v4 ip _ => .v4 ip
  | .v6 ip _ _ _ => .v6 ip

def port : SocketAddr → UInt16
  | .v4 _ port => port
  | .v6 _ port _ _ => port

/-- The address carries neither flow information nor a scope id. -/
def Plain : SocketAddr → Prop
  | .v4 _ _ => True
  | .v6 _ _ flowinfo scopeId => flowinfo = 0 ∧ scopeId = 0

theorem new_eq_self_iff (address : SocketAddr) :
    new address.ip address.port = address ↔ address.Plain := by
  cases address with
  | v4 ip port => simp [new, SocketAddr.ip, SocketAddr.port, Plain]
  | v6 ip port =>
    simp only [new, SocketAddr.ip, SocketAddr.port, Plain, SocketAddr.v6.injEq, true_and]
    exact and_congr eq_comm eq_comm

end SocketAddr

inductive TokenPayload
  | retry (address : SocketAddr) (origDstCid : ConnectionId) (issued : SystemTime)
  | validation (ip : IpAddr) (issued : SystemTime)

structure Token where
  payload : TokenPayload
  nonce : BitVec 128

/-- The token key: sealing and opening under the key derived from a nonce. -/
structure HandshakeTokenKey where
  sealBytes (nonce plaintext : List UInt8) : List UInt8
  openBytes (nonce ciphertext : List UInt8) : Option (List UInt8)
  open_seal (nonce plaintext : List UInt8) :
    openBytes nonce (sealBytes nonce plaintext) = some plaintext

inductive TokenType
  | retry
  | validation
  deriving DecidableEq

def TokenType.toByte : TokenType → UInt8
  | .retry => 0
  | .validation => 1

def TokenType.fromByte (n : UInt8) : Option TokenType :=
  [TokenType.retry, .validation].find? (·.toByte == n)

/-! ### Encoding -/

def encodeIp : IpAddr → List UInt8
  | .v4 octets => 0 :: octets.1
  | .v6 octets => 1 :: octets.1

def encodeAddr (address : SocketAddr) : List UInt8 :=
  encodeIp address.ip ++ toBeBytes 2 address.port.toNat

def unixSecs (time : SystemTime) : Nat :=
  ((time.durationSince unixEpoch).map Duration.asSecs).getD 0

def encodeUnixSecs (time : SystemTime) : List UInt8 :=
  toBeBytes 8 (UInt64.ofNat (unixSecs time)).toNat

def TokenPayload.encode : TokenPayload → List UInt8
  | .retry address origDstCid issued =>
    TokenType.retry.toByte ::
      (encodeAddr address ++ (origDstCid.encodeLong ++ encodeUnixSecs issued))
  | .validation ip issued =>
    TokenType.validation.toByte :: (encodeIp ip ++ encodeUnixSecs issued)

def toLeBytes (nonce : BitVec 128) : List UInt8 :=
  (toBeBytes 16 nonce.toNat).reverse

def fromLeBytes (bytes : List UInt8) : BitVec 128 :=
  BitVec.ofNat 128 (fromBeBytes bytes.reverse)

def Token.encode (token : Token) (key : HandshakeTokenKey) : List UInt8 :=
  key.sealBytes (toLeBytes token.nonce) token.payload.encode ++ toLeBytes token.nonce

/-! ### Decoding -/

inductive DecodeFailure
  | undecodable
  | panic

def okOrNone {α : Type} : Except UnexpectedEnd α → Except DecodeFailure α
  | .ok a => .ok a
  | .error _ => .error .undecodable

def decodeIp (buf : List UInt8) : Except DecodeFailure (IpAddr × List UInt8) := do
  let (tag, buf) ← okOrNone (getU8 buf)
  if tag = 0 then
    let (octets, buf) ← okOrNone (getOctets 4 buf)
    return (.v4 octets, buf)
  else if tag = 1 then
    let (octets, buf) ← okOrNone (getOctets 16 buf)
    return (.v6 octets, buf)
  else .error .undecodable

def decodeAddr (buf : List UInt8) : Except DecodeFailure (SocketAddr × List UInt8) := do
  let (ip, buf) ← decodeIp buf
  let (port, buf) ← okOrNone (getU16 buf)
  return (.new ip port, buf)

/-- The addition panics past the last representable time. -/
def decodeUnixSecs (buf : List UInt8) : Except DecodeFailure (SystemTime × List UInt8) := do
  let (secs, buf) ← okOrNone (getU64 buf)
  match unixEpoch.checkedAdd (.fromSecs secs) with
  | none => .error .panic
  | some time => return (time, buf)

def decodeCid (buf : List UInt8) : Except DecodeFailure (ConnectionId × List UInt8) :=
  match ConnectionId.decodeLong buf with
  | none => .error .undecodable
  | some result => .ok result

def TokenPayload.decode (buf : List UInt8) : Except DecodeFailure TokenPayload := do
  let (tag, reader) ← okOrNone (getU8 buf)
  match TokenType.fromByte tag with
  | none => .error .undecodable
  | some .retry =>
    let (address, reader) ← decodeAddr reader
    let (origDstCid, reader) ← decodeCid reader
    let (issued, reader) ← decodeUnixSecs reader
    if reader.isEmpty then return .retry address origDstCid issued else .error .undecodable
  | some .validation =>
    let (ip, reader) ← decodeIp reader
    let (issued, reader) ← decodeUnixSecs reader
    if reader.isEmpty then return .validation ip issued else .error .undecodable

def Token.decode (key : HandshakeTokenKey) (rawTokenBytes : List UInt8) :
    Except DecodeFailure Token :=
  if rawTokenBytes.length < 16 then .error .undecodable
  else
    let nonceSliceStart := rawTokenBytes.length - 16
    let nonceBytes := rawTokenBytes.drop nonceSliceStart
    match key.openBytes nonceBytes (rawTokenBytes.take nonceSliceStart) with
    | none => .error .undecodable
    | some data => do
      let payload ← TokenPayload.decode data
      return { payload, nonce := fromLeBytes nonceBytes }

/-! ### Issuing and checking -/

structure InitialHeader where
  dstCid : ConnectionId
  srcCid : ConnectionId
  token : List UInt8
  version : UInt32

/-- State in an `Incoming` determined by a token or lack thereof. -/
structure IncomingToken where
  retrySrcCid : Option ConnectionId
  origDstCid : ConnectionId
  validated : Bool

structure Incoming where
  remote : SocketAddr
  header : InitialHeader
  token : IncomingToken

def Incoming.mayRetry (incoming : Incoming) : Bool :=
  incoming.token.retrySrcCid.isNone

/-- The Retry packet without its integrity tag. -/
structure RetryPacket where
  srcCid : ConnectionId
  dstCid : ConnectionId
  version : UInt32
  token : List UInt8

structure ServerConfig where
  tokenKey : HandshakeTokenKey
  retryTokenLifetime : Duration
  validationTokenLifetime : Duration

/-- `Endpoint::retry` with the connection ID and the nonce it draws and the time
it reads; the packet goes to the first component. -/
def retry (config : ServerConfig) (now : SystemTime) (locCid : ConnectionId)
    (nonce : BitVec 128) (incoming : Incoming) : Except Incoming (SocketAddr × RetryPacket) :=
  if !incoming.mayRetry then .error incoming
  else
    let payload := TokenPayload.retry incoming.remote incoming.header.dstCid now
    let token := Token.encode { payload, nonce } config.tokenKey
    .ok (incoming.remote,
      { srcCid := locCid, dstCid := incoming.header.srcCid,
        version := incoming.header.version, token })

inductive HeaderFailure
  | invalidRetryToken
  | panic

section FromHeader

variable {σ : Type}
  (checkAndInsert : σ → Nat → SystemTime → Duration → Option (Except TokenReuseError Unit) × σ)

/-- The check of a decoded token; `σ` is the state of the token log. -/
def IncomingToken.fromToken (header : InitialHeader) (config : ServerConfig)
    (remoteAddress : SocketAddr) (now : SystemTime) (log : σ) (token : Token) :
    Except HeaderFailure IncomingToken × σ :=
  let unvalidated : IncomingToken :=
    { retrySrcCid := none, origDstCid := header.dstCid, validated := false }
  match token.payload with
  | .retry address origDstCid issued =>
    if address ≠ remoteAddress then (.error .invalidRetryToken, log)
    else
      match issued.checkedAdd config.retryTokenLifetime with
      | none => (.error .panic, log)
      | some expires =>
        if expires.nanos < now.nanos then (.error .invalidRetryToken, log)
        else
          (.ok { retrySrcCid := some header.dstCid, origDstCid, validated := true }, log)
  | .validation ip issued =>
    if ip ≠ remoteAddress.ip then (.ok unvalidated, log)
    else
      match issued.checkedAdd config.validationTokenLifetime with
      | none => (.error .panic, log)
      | some expires =>
        if expires.nanos < now.nanos then (.ok unvalidated, log)
        else
          match checkAndInsert log token.nonce.toNat issued config.validationTokenLifetime with
          | (none, log) => (.error .panic, log)
          | (some (.error _), log) => (.ok unvalidated, log)
          | (some (.ok ()), log) =>
            (.ok { retrySrcCid := none, origDstCid := header.dstCid, validated := true }, log)

/-- An undecodable token counts as none. -/
def IncomingToken.fromHeader (header : InitialHeader) (config : ServerConfig)
    (remoteAddress : SocketAddr) (now : SystemTime) (log : σ) :
    Except HeaderFailure IncomingToken × σ :=
  let unvalidated : IncomingToken :=
    { retrySrcCid := none, origDstCid := header.dstCid, validated := false }
  if header.token.isEmpty then (.ok unvalidated, log)
  else
    match Token.decode config.tokenKey header.token with
    | .error .undecodable => (.ok unvalidated, log)
    | .error .panic => (.error .panic, log)
    | .ok token => fromToken checkAndInsert header config remoteAddress now log token

end FromHeader

/-! ### What a token keeps of its payload -/

def wholeSecs (time : SystemTime) : SystemTime where
  nanos := (nanosPerSec * unixSecs time : Nat)
  ge_range := by
    have : (0 : Int) ≤ (nanosPerSec * unixSecs time : Nat) := Int.natCast_nonneg _
    omega
  lt_range := by
    unfold unixSecs
    cases h : time.durationSince unixEpoch with
    | none => decide
    | some d =>
      have hnanos := SystemTime.durationSince_eq_some h
      have hfloor : nanosPerSec * d.asSecs ≤ d.nanos := Nat.mul_div_le _ _
      have hepoch : unixEpoch.nanos = 0 := rfl
      have := time.lt_range
      simp only [Option.map_some, Option.getD_some]
      omega

def TokenPayload.transmitted : TokenPayload → TokenPayload
  | .retry address origDstCid issued =>
    .retry (.new address.ip address.port) origDstCid (wholeSecs issued)
  | .validation ip issued => .validation ip (wholeSecs issued)

theorem unixSecs_lt (time : SystemTime) : unixSecs time < UInt64.size := by
  have hlt := (wholeSecs time).lt_range
  have hhorizon : nanosPerSec * UInt64.size = 2 * horizon := by decide
  have hmul : nanosPerSec * unixSecs time < nanosPerSec * UInt64.size := by
    simp only [wholeSecs] at hlt
    omega
  exact Nat.lt_of_mul_lt_mul_left hmul

/-- Less than a second is lost, and only times before the epoch become later. -/
theorem lt_wholeSecs_add (time : SystemTime) :
    time.nanos < (wholeSecs time).nanos + nanosPerSec := by
  have hpos : 0 < nanosPerSec := by decide
  simp only [wholeSecs, unixSecs]
  cases h : time.durationSince unixEpoch with
  | none =>
    unfold SystemTime.durationSince at h
    split_ifs at h with hle
    have hepoch : unixEpoch.nanos = 0 := rfl
    omega
  | some d =>
    have hnanos := SystemTime.durationSince_eq_some h
    have hepoch : unixEpoch.nanos = 0 := rfl
    have hfloor := Nat.div_add_mod d.nanos nanosPerSec
    have hrest := Nat.mod_lt d.nanos hpos
    simp only [Option.map_some, Option.getD_some, Duration.asSecs]
    omega

@[simp] theorem okOrNone_ok {α : Type} (a : α) : okOrNone (.ok a) = .ok a := rfl

@[simp] theorem ok_bind {ε α β : Type} (a : α) (f : α → Except ε β) :
    ((Except.ok a : Except ε α) >>= f) = f a := rfl

theorem decodeIp_encodeIp (ip : IpAddr) (rest : List UInt8) :
    decodeIp (encodeIp ip ++ rest) = .ok (ip, rest) := by
  cases ip with
  | v4 =>
    simp only [encodeIp, cons_append, decodeIp, getU8, okOrNone_ok, ok_bind, if_true,
      getOctets_append]
    rfl
  | v6 =>
    have htag : ¬ (1 : UInt8) = 0 := by decide
    simp only [encodeIp, cons_append, decodeIp, getU8, okOrNone_ok, ok_bind, if_true,
      if_neg htag, getOctets_append]
    rfl

theorem decodeAddr_encodeAddr (address : SocketAddr) (rest : List UInt8) :
    decodeAddr (encodeAddr address ++ rest) = .ok (.new address.ip address.port, rest) := by
  simp only [encodeAddr, append_assoc, decodeAddr, decodeIp_encodeIp, ok_bind, getU16_append,
    okOrNone_ok]
  rfl

theorem decodeUnixSecs_encodeUnixSecs (time : SystemTime) (rest : List UInt8) :
    decodeUnixSecs (encodeUnixSecs time ++ rest) = .ok (wholeSecs time, rest) := by
  have htime : unixEpoch.checkedAdd (.fromSecs (.ofNat (unixSecs time))) =
      some (wholeSecs time) := by
    apply SystemTime.checkedAdd_of_eq
    simp [Duration.fromSecs, wholeSecs, unixEpoch, UInt64.toNat_ofNat_of_lt' (unixSecs_lt time)]
  simp only [encodeUnixSecs, decodeUnixSecs, getU64_append, okOrNone_ok, ok_bind, htime]
  rfl

open TokenPayload

theorem TokenPayload.decode_retry {buf afterAddr afterCid : List UInt8} {address : SocketAddr}
    {origDstCid : ConnectionId} {issued : SystemTime}
    (haddress : decodeAddr buf = .ok (address, afterAddr))
    (hcid : decodeCid afterAddr = .ok (origDstCid, afterCid))
    (hissued : decodeUnixSecs afterCid = .ok (issued, [])) :
    decode (TokenType.retry.toByte :: buf) = .ok (.retry address origDstCid issued) := by
  have htag : TokenType.fromByte TokenType.retry.toByte = some .retry := by decide
  simp only [decode, getU8, okOrNone_ok, ok_bind, htag, haddress, hcid, hissued,
    isEmpty_nil, if_true]
  rfl

theorem TokenPayload.decode_validation {buf afterIp : List UInt8} {ip : IpAddr}
    {issued : SystemTime} (hip : decodeIp buf = .ok (ip, afterIp))
    (hissued : decodeUnixSecs afterIp = .ok (issued, [])) :
    decode (TokenType.validation.toByte :: buf) = .ok (.validation ip issued) := by
  have htag : TokenType.fromByte TokenType.validation.toByte = some .validation := by decide
  simp only [decode, getU8, okOrNone_ok, ok_bind, htag, hip, hissued,
    isEmpty_nil, if_true]
  rfl

/-- A token's payload survives its encoding up to what the encoding leaves out. -/
theorem TokenPayload.decode_encode (payload : TokenPayload) :
    decode payload.encode = .ok payload.transmitted := by
  have hsecs (issued : SystemTime) :
      decodeUnixSecs (encodeUnixSecs issued) = .ok (wholeSecs issued, []) := by
    have h := decodeUnixSecs_encodeUnixSecs issued []
    rwa [append_nil] at h
  cases payload with
  | retry _ _ issued =>
    refine decode_retry (decodeAddr_encodeAddr _ _) ?_ (hsecs issued)
    rw [decodeCid, ConnectionId.decodeLong_encodeLong]
  | validation _ issued =>
    exact decode_validation (decodeIp_encodeIp _ _) (hsecs issued)

theorem toLeBytes_length (nonce : BitVec 128) : (toLeBytes nonce).length = 16 := by
  rw [toLeBytes, length_reverse, toBeBytes_length]

theorem fromLeBytes_toLeBytes (nonce : BitVec 128) : fromLeBytes (toLeBytes nonce) = nonce := by
  rw [fromLeBytes, toLeBytes, reverse_reverse, fromBeBytes_toBeBytes nonce.isLt,
    BitVec.ofNat_toNat, BitVec.setWidth_eq]

theorem Token.decode_encode (token : Token) (key : HandshakeTokenKey) :
    Token.decode key (token.encode key) =
      .ok { token with payload := token.payload.transmitted } := by
  have hnonce := toLeBytes_length token.nonce
  have hlength : (token.encode key).length - 16 =
      (key.sealBytes (toLeBytes token.nonce) token.payload.encode).length := by
    rw [Token.encode, length_append, hnonce, Nat.add_sub_cancel]
  have hroom : ¬ (token.encode key).length < 16 := by
    rw [Token.encode, length_append, hnonce]
    omega
  simp only [Token.decode, if_neg hroom, hlength]
  rw [Token.encode, drop_left, take_left, key.open_seal]
  simp only [TokenPayload.decode_encode, fromLeBytes_toLeBytes, ok_bind]
  rfl

theorem Token.encode_ne_nil (token : Token) (key : HandshakeTokenKey) :
    (token.encode key).isEmpty = false := by
  have hnonce := toLeBytes_length token.nonce
  rw [isEmpty_eq_false_iff, ← length_pos_iff, Token.encode, length_append, hnonce]
  omega

section RoundTrip

variable {σ : Type}
  {checkAndInsert : σ → Nat → SystemTime → Duration → Option (Except TokenReuseError Unit) × σ}
  {config : ServerConfig} {locCid : ConnectionId} {nonce : BitVec 128} {incoming : Incoming}
  {issued now : SystemTime} {destination : SocketAddr} {packet : RetryPacket}
  {header : InitialHeader} {log : σ}

/-- The token of a Retry packet is accepted exactly when the address it was sent
to has nothing the token leaves out and the expiry time can be computed. -/
theorem retry_token_accepted_iff
    (hretry : retry config issued locCid nonce incoming = .ok (destination, packet))
    (htoken : header.token = packet.token) (hdst : header.dstCid = packet.srcCid)
    (hfresh : now.nanos + nanosPerSec ≤ issued.nanos + config.retryTokenLifetime.nanos) :
    IncomingToken.fromHeader checkAndInsert header config destination now log = (.ok
          { retrySrcCid := some packet.srcCid, origDstCid := incoming.header.dstCid,
            validated := true }, log) ↔
      destination.Plain ∧ (wholeSecs issued).nanos + config.retryTokenLifetime.nanos < horizon := by
  unfold retry at hretry
  split_ifs at hretry with hmay
  cases hretry
  simp only [IncomingToken.fromHeader, htoken, Token.encode_ne_nil, Token.decode_encode,
    Bool.false_eq_true, if_false, transmitted, IncomingToken.fromToken, hdst]
  rw [← SocketAddr.new_eq_self_iff]
  by_cases haddress : SocketAddr.new incoming.remote.ip incoming.remote.port = incoming.remote
  · rw [if_neg (not_not.mpr haddress)]
    cases hexpires : (wholeSecs issued).checkedAdd config.retryTokenLifetime with
    | none =>
      refine iff_of_false (by simp) fun h => ?_
      exact absurd (SystemTime.checkedAdd_eq_none_iff.mp hexpires) (by omega)
    | some expires =>
      have hnanos := SystemTime.checkedAdd_eq_some hexpires
      have hlive : ¬ expires.nanos < now.nanos := by
        have := lt_wholeSecs_add issued
        omega
      dsimp only
      rw [if_neg hlive]
      exact iff_of_true rfl ⟨haddress, hnanos ▸ expires.lt_range⟩
  · rw [if_pos haddress]
    exact iff_of_false (by simp) fun h => haddress h.1

end RoundTrip

def clearKey : HandshakeTokenKey where
  sealBytes _ plaintext := plaintext
  openBytes _ ciphertext := some ciphertext
  open_seal _ _ := rfl

def fifteenSeconds : ServerConfig where
  tokenKey := clearKey
  retryTokenLifetime := ⟨15000000000, by decide⟩
  validationTokenLifetime := ⟨0, by decide⟩

def epochPlus (secs : Fin 1000) : SystemTime where
  nanos := secs.val * 1000000000 + 700000000
  ge_range := by
    have : 0 < horizon := by decide
    omega
  lt_range := by
    have : 1000 * 1000000000 < horizon := by decide
    omega

def shortCid (byte : UInt8) : ConnectionId :=
  ⟨[byte, byte], Nat.le_of_ble_eq_true rfl⟩

/-- A first packet from link-local `fe80::1`, whose interface is the scope id. -/
def firstInitial (scopeId : UInt32) : Incoming :=
  let dstCid := shortCid 7
  { remote := .v6 ⟨[254, 128, 0, 0, 0, 0, 0, 0, 0, 0, 0, 0, 0, 0, 0, 1], rfl⟩ 4433 0 scopeId
    header := { dstCid, srcCid := shortCid 8, token := [], version := 1 }
    token := { retrySrcCid := none, origDstCid := dstCid, validated := false } }

def RetryPacket.answer (packet : RetryPacket) : InitialHeader where
  dstCid := packet.srcCid
  srcCid := packet.dstCid
  token := packet.token
  version := packet.version

def sentRetry (scopeId : UInt32) : RetryPacket where
  srcCid := shortCid 9
  dstCid := shortCid 8
  version := 1
  token := Token.encode
    { payload := .retry (firstInitial scopeId).remote (shortCid 7) (epochPlus 100)
      nonce := 5 } clearKey

/-- Without a scope id the answer is accepted fourteen seconds later. -/
theorem unscoped_retry_token_accepted :
    IncomingToken.fromHeader (fun (log : Unit) _ _ _ => (none, log)) (sentRetry 0).answer
        fifteenSeconds (firstInitial 0).remote (epochPlus 114) () =
      (.ok { retrySrcCid := some (shortCid 9), origDstCid := shortCid 7, validated := true }, ()) :=
  have hretry : retry fifteenSeconds (epochPlus 100) (shortCid 9) 5 (firstInitial 0) =
      .ok ((firstInitial 0).remote, sentRetry 0) := rfl
  (retry_token_accepted_iff hretry rfl rfl (by decide)).mpr ⟨⟨rfl, rfl⟩, by decide⟩

/-- With one it is refused at once. -/
theorem scoped_retry_token_refused :
    retry fifteenSeconds (epochPlus 100) (shortCid 9) 5 (firstInitial 3) =
        .ok ((firstInitial 3).remote, sentRetry 3) ∧
      IncomingToken.fromHeader (fun (log : Unit) _ _ _ => (none, log)) (sentRetry 3).answer
          fifteenSeconds (firstInitial 3).remote (epochPlus 100) () =
        (.error .invalidRetryToken, ()) :=
  ⟨rfl, rfl⟩

end Quac.AddressToken
