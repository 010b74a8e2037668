import Quac.Packet

/-!
Packet numbers on the wire: the sender truncates them to what the receiver needs, which is
told by the number that it expects next.
-/

namespace Quac.PacketNumbers

open Coding Identifiers Lib.BigEndian Packet

inductive PacketNumber
  | u8 (x : UInt8)
  | u16 (x : UInt16)
  | u24 (x : UInt32)
  | u32 (x : UInt32)
deriving DecidableEq

inductive Stop
  | error (e : PacketDecodeError)
  | panic

namespace PacketNumber

/-- `PacketNumber::new`; `none` is a panic. -/
def new (n largestAcked : Nat) : Option PacketNumber :=
  if n < largestAcked then none
  else
    let range := (n - largestAcked) * 2
    if range < 1 <<< 8 then some (.u8 (.ofNat n))
    else if range < 1 <<< 16 then some (.u16 (.ofNat n))
    else if range < 1 <<< 24 then some (.u24 (.ofNat n))
    else if range < 1 <<< 32 then some (.u32 (.ofNat n))
    else none

def len : PacketNumber → Nat
  | .u8 _ => 1
  | .u16 _ => 2
  | .u24 _ => 3
  | .u32 _ => 4

def truncated : PacketNumber → Nat
  | .u8 x => x.toNat
  | .u16 x => x.toNat
  | .u24 x => x.toNat
  | .u32 x => x.toNat

def encode (p : PacketNumber) : Bytes :=
  toBeBytes p.len p.truncated

def read {α : Type} (f : α → PacketNumber) (x : Except UnexpectedEnd (α × Bytes)) :
    Except Stop (PacketNumber × Bytes) :=
  match orUnexpectedEnd x with
  | .ok (x, rest) => .ok (f x, rest)
  | .error e => .error (.error e)

def decode (len : Nat) (buf : Bytes) : Except Stop (PacketNumber × Bytes) :=
  match len with
  | 1 => read .u8 (getU8 buf)
  | 2 => read .u16 (getU16 buf)
  -- `get_uint` does not check the length.
  | 3 =>
    if buf.length < 3 then .error .panic
    else .ok (.u24 (.ofNat (fromBeBytes (buf.take 3))), buf.drop 3)
  | 4 => read .u32 (getU32 buf)
  | _ => .error .panic

def decodeLen (tag : UInt8) : Nat :=
  1 + (tag &&& 0x03).toNat

def tag : PacketNumber → UInt8
  | .u8 _ => 0b00
  | .u16 _ => 0b01
  | .u24 _ => 0b10
  | .u32 _ => 0b11

/-- The number next to `expected` that was truncated. -/
def expand (p : PacketNumber) (expected : Nat) : Nat :=
  let win := 1 <<< (p.len * 8)
  let hwin := win / 2
  let mask := win - 1
  let candidate := (expected &&& (2 ^ 64 - 1 - mask)) ||| p.truncated
  if hwin ≤ expected ∧ candidate ≤ expected - hwin then candidate + win
  else if expected + hwin < candidate ∧ win < candidate then candidate - win
  else candidate

end PacketNumber

section Codec

theorem getU32_append (x : UInt32) (rest : Bytes) :
    getU32 (toBeBytes 4 x.toNat ++ rest) = .ok (x, rest) := by
  have hlength : (toBeBytes 4 x.toNat).length = 4 := toBeBytes_length _ _
  unfold getU32
  rw [if_neg (by rw [List.length_append, hlength]; omega), List.take_left' hlength,
    List.drop_left' hlength, fromBeBytes_toBeBytes x.toNat_lt, UInt32.ofNat_toNat]

theorem toBeBytes_mod (length value : Nat) :
    toBeBytes length (value % 256 ^ length) = toBeBytes length value := by
  cases length with
  | zero => rfl
  | succ length =>
    have hhigh : value % 256 ^ (length + 1) / 256 ^ length = value / 256 ^ length % 256 := by
      rw [Nat.pow_succ, Nat.mod_mul_right_div_self]
    have hlow : value % 256 ^ (length + 1) % 256 ^ length = value % 256 ^ length :=
      Nat.mod_mod_of_dvd _ (Nat.pow_dvd_pow 256 (Nat.le_succ length))
    rw [toBeBytes, toBeBytes, hhigh, hlow]
    congr 1
    exact UInt8.toNat_inj.mp (by simp)

/-- The number as it is on the wire, where only three bytes of `U24` are. -/
def PacketNumber.wire : PacketNumber → PacketNumber
  | .u24 x => .u24 (.ofNat (x.toNat % 256 ^ 3))
  | p => p

open PacketNumber

theorem decodeLen_tag (p : PacketNumber) : decodeLen p.tag = p.len := by
  cases p <;> (dsimp only [tag, len]; decide)

theorem PacketNumber.len_le (p : PacketNumber) : 0 < p.len ∧ p.len ≤ 4 := by
  cases p <;> (dsimp only [len]; decide)

/-- What is encoded is decoded, up to the byte of `U24` that is not sent. -/
theorem decode_encode (p : PacketNumber) (rest : Bytes) :
    decode (decodeLen p.tag) (p.encode ++ rest) = .ok (p.wire, rest) := by
  rw [decodeLen_tag]
  cases p with
  | u8 x =>
    have hbyte : toBeBytes 1 x.toNat = [x] := by simp [toBeBytes]
    change read .u8 (getU8 (toBeBytes 1 x.toNat ++ rest)) = _
    rw [hbyte]
    rfl
  | u16 x =>
    change read .u16 (getU16 (toBeBytes 2 x.toNat ++ rest)) = _
    rw [getU16_append]
    rfl
  | u24 x =>
    have hlength : (toBeBytes 3 x.toNat).length = 3 := toBeBytes_length _ _
    change (if (toBeBytes 3 x.toNat ++ rest).length < 3 then Except.error Stop.panic
      else .ok (u24 (.ofNat (fromBeBytes ((toBeBytes 3 x.toNat ++ rest).take 3))),
        (toBeBytes 3 x.toNat ++ rest).drop 3)) = _
    rw [if_neg (by rw [List.length_append, hlength]; omega), List.take_left' hlength,
      List.drop_left' hlength, ← toBeBytes_mod 3 x.toNat,
      fromBeBytes_toBeBytes (Nat.mod_lt _ (by decide))]
    rfl
  | u32 x =>
    change read .u32 (getU32 (toBeBytes 4 x.toNat ++ rest)) = _
    rw [getU32_append]
    rfl

end Codec

theorem and_highBits {width bits x : Nat} (hbits : bits ≤ width) (hx : x < 2 ^ width) :
    x &&& (2 ^ width - 1 - (2 ^ bits - 1)) = (x / 2 ^ bits) <<< bits := by
  have hmask : 2 ^ width - 1 - (2 ^ bits - 1) = (2 ^ (width - bits) - 1) <<< bits := by
    have hpow : 2 ^ width = 2 ^ (width - bits) * 2 ^ bits := by
      rw [← Nat.pow_add, Nat.sub_add_cancel hbits]
    have hpos : 0 < 2 ^ bits := Nat.two_pow_pos bits
    rw [Nat.shiftLeft_eq, Nat.sub_mul, Nat.one_mul, ← hpow]
    omega
  rw [hmask]
  apply Nat.eq_of_testBit_eq
  intro i
  simp only [Nat.testBit_and, Nat.testBit_shiftLeft, Nat.testBit_two_pow_sub_one,
    Nat.testBit_div_two_pow]
  by_cases hi : bits ≤ i
  · rw [Nat.sub_add_cancel hi]
    rcases Nat.lt_or_ge i width with hlt | hge
    · simp [hi, Nat.sub_lt_sub_right hi hlt]
    · have hzero : x.testBit i = false :=
        Nat.testBit_lt_two_pow (lt_of_lt_of_le hx (Nat.pow_le_pow_right (by omega) hge))
      simp [hzero]
  · simp [hi]

/-- Of the numbers with one remainder, at most one is less than half a window from
`expected`, and the rule finds it. -/
theorem nearest {hwin expected n candidate : Nat} (hlow : expected < n + hwin)
    (hhigh : n < expected + hwin)
    (hcandidate : candidate = expected / (2 * hwin) * (2 * hwin) + n % (2 * hwin)) :
    (if hwin ≤ expected ∧ candidate ≤ expected - hwin then candidate + 2 * hwin
      else if expected + hwin < candidate ∧ 2 * hwin < candidate then candidate - 2 * hwin
      else candidate) = n := by
  generalize hwin' : 2 * hwin = win at hcandidate ⊢
  have hn := Nat.div_add_mod' n win
  have he := Nat.div_add_mod' expected win
  have hnlt := Nat.mod_lt n (show 0 < win by omega)
  have helt := Nat.mod_lt expected (show 0 < win by omega)
  generalize n / win = p at hn
  generalize expected / win = q at he hcandidate
  -- The two are in the same window or in neighbouring ones.
  have hnear : p = q ∨ p = q + 1 ∨ q = p + 1 := by
    by_contra hfar
    rcases Nat.lt_or_ge p q with _ | _
    · have hmul : (p + 2) * win ≤ q * win := Nat.mul_le_mul_right win (by omega)
      rw [Nat.add_mul] at hmul
      omega
    · have hmul : (q + 2) * win ≤ p * win := Nat.mul_le_mul_right win (by omega)
      rw [Nat.add_mul] at hmul
      omega
  rcases hnear with rfl | rfl | rfl
  · split_ifs <;> omega
  · rw [Nat.add_mul, Nat.one_mul] at hn
    split_ifs <;> omega
  · rw [Nat.add_mul, Nat.one_mul] at he hcandidate
    split_ifs <;> omega

theorem expand_eq {p : PacketNumber} {n expected : Nat}
    (htruncated : p.truncated = n % 256 ^ p.len) (hexpected : expected < 2 ^ 64)
    (hlow : expected < n + 2 ^ (8 * p.len - 1)) (hhigh : n < expected + 2 ^ (8 * p.len - 1)) :
    p.expand expected = n := by
  generalize hhalf : 2 ^ (8 * p.len - 1) = hwin at hlow hhigh
  have hlen := p.len_le
  have hpow : 2 ^ (p.len * 8) = 2 * hwin := by
    rw [← hhalf, ← Nat.pow_succ', mul_comm p.len 8]
    congr 1
    omega
  have hbytes : 256 ^ p.len = 2 ^ (p.len * 8) := by
    rw [mul_comm, Nat.pow_mul]
  have hcandidate : (expected &&& (2 ^ 64 - 1 - (2 ^ (p.len * 8) - 1))) ||| p.truncated =
      expected / (2 * hwin) * (2 * hwin) + n % (2 * hwin) := by
    have hlt : p.truncated < 2 ^ (p.len * 8) := by
      rw [htruncated, hbytes]
      exact Nat.mod_lt _ (Nat.two_pow_pos _)
    rw [and_highBits (by omega) hexpected, tagged_or _ hlt, htruncated, hbytes, hpow]
  unfold PacketNumber.expand
  dsimp only
  rw [Nat.one_shiftLeft, hcandidate, hpow, Nat.mul_div_cancel_left _ (by omega)]
  exact nearest hlow hhigh rfl

/-- The number is sent with enough bytes to tell it from those that are closer to the
largest acknowledged one. -/
theorem new_spec {n largestAcked : Nat} (hacked : largestAcked ≤ n)
    (hgap : n - largestAcked < 2 ^ 31) :
    ∃ p, PacketNumber.new n largestAcked = some p ∧ p.wire.len = p.len ∧
      p.wire.truncated = n % 256 ^ p.len ∧ n - largestAcked < 2 ^ (8 * p.len - 1) := by
  unfold PacketNumber.new
  rw [if_neg (not_lt.mpr hacked)]
  dsimp only
  split_ifs with h₈ h₁₆ h₂₄ h₃₂
  case neg => omega
  all_goals
    refine ⟨_, rfl, rfl, ?_, ?_⟩
    · simp [PacketNumber.wire, PacketNumber.truncated, PacketNumber.len] <;> omega
    · simp only [PacketNumber.len]
      omega

/-- A packet number is recovered from what is sent of it by a receiver that has seen at least
what the sender knows to be acknowledged, and not too much more than this packet. -/
theorem packet_number_recovered {n largestAcked largestReceived : Nat} (hn : n < 2 ^ 62)
    (hacked : largestAcked ≤ n) (hgap : n - largestAcked < 2 ^ 31)
    (hreceived : largestAcked ≤ largestReceived) :
    ∃ p, PacketNumber.new n largestAcked = some p ∧
      (largestReceived + 1 - n < 2 ^ (8 * p.len - 1) → ∀ rest, ∃ decoded,
        PacketNumber.decode (PacketNumber.decodeLen p.tag) (p.encode ++ rest) =
          .ok (decoded, rest) ∧
        decoded.expand (largestReceived + 1) = n) := by
  obtain ⟨p, hnew, hlen, htruncated, hclose⟩ := new_spec hacked hgap
  refine ⟨p, hnew, fun hahead rest => ⟨p.wire, decode_encode p rest, ?_⟩⟩
  have hhalf : 2 ^ (8 * p.len - 1) ≤ 2 ^ 31 :=
    Nat.pow_le_pow_right (by omega) (by have hlen := p.len_le; omega)
  rw [← hlen] at htruncated hclose hahead hhalf
  refine expand_eq htruncated ?_ ?_ ?_ <;> omega

theorem packet_number_recovered_two_bytes : (∃ p, PacketNumber.new 0xac5c02 0xabe8b3 = some p ∧
    (0xac5c05 + 1 - 0xac5c02 < 2 ^ (8 * p.len - 1) → ∀ rest, ∃ decoded,
      PacketNumber.decode (PacketNumber.decodeLen p.tag) (p.encode ++ rest) = .ok (decoded, rest) ∧
      decoded.expand (0xac5c05 + 1) = 0xac5c02)) ∧
    PacketNumber.new 0xac5c02 0xabe8b3 = some (.u16 0x5c02) :=
  ⟨packet_number_recovered (by decide) (by decide) (by decide) (by decide), by decide⟩

end Quac.PacketNumbers
