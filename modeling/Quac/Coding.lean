import Quac.Identifiers
import Quac.Lib.BigEndian
import Quac.Lib.Parsing

/-!
Decoding of QUIC primitives from a buffer.  A buffer is the list of bytes not
yet read; a decoder returns its value with the bytes that follow it.
-/

namespace Quac.Coding

open Identifiers Lib.BigEndian Lib.Parsing List

structure UnexpectedEnd where

def getU8 : List UInt8 → Except UnexpectedEnd (UInt8 × List UInt8)
  | [] => .error ⟨⟩
  | b :: rest => .ok (b, rest)

/-- A string of a fixed number of bytes, such as the octets of an IP address. -/
def Octets (n : Nat) : Type :=
  { bytes : List UInt8 // bytes.length = n }
  deriving DecidableEq

def getOctets (n : Nat) (buf : List UInt8) : Except UnexpectedEnd (Octets n × List UInt8) :=
  if h : buf.length < n then .error ⟨⟩
  else .ok (⟨buf.take n, List.length_take_of_le (Nat.le_of_not_lt h)⟩, buf.drop n)

def getU16 (buf : List UInt8) : Except UnexpectedEnd (UInt16 × List UInt8) :=
  if buf.length < 2 then .error ⟨⟩
  else .ok (UInt16.ofNat (fromBeBytes (buf.take 2)), buf.drop 2)

def getU64 (buf : List UInt8) : Except UnexpectedEnd (UInt64 × List UInt8) :=
  if buf.length < 8 then .error ⟨⟩
  else .ok (UInt64.ofNat (fromBeBytes (buf.take 8)), buf.drop 8)

/-- `u32::decode`, big-endian as all of the wire format. -/
def getU32 (buf : List UInt8) : Except UnexpectedEnd (UInt32 × List UInt8) :=
  if buf.length < 4 then .error ⟨⟩
  else .ok (UInt32.ofNat (fromBeBytes (buf.take 4)), buf.drop 4)

/-- The number of bytes that follow the first byte of a variable-length
integer, selected by its two top bits. -/
def varIntTail (tag : UInt8) : Nat :=
  if tag = 0 then 0 else if tag = 1 then 1 else if tag = 2 then 3 else 7

/-- `VarInt::decode` followed by `into_inner`. -/
def getVar : List UInt8 → Except UnexpectedEnd (Nat × List UInt8)
  | [] => .error ⟨⟩
  | b :: rest =>
    let tail := varIntTail (b >>> 6)
    if rest.length < tail then .error ⟨⟩
    else .ok (fromBeBytes ((b &&& 0x3f) :: rest.take tail), rest.drop tail)

/-- `VarInt::encode`, for a number below `2 ^ 62`; the source panics at a larger one. -/
def putVar (x : Nat) : List UInt8 :=
  if x < 2 ^ 6 then toBeBytes 1 x
  else if x < 2 ^ 14 then toBeBytes 2 ((0b01 <<< 14) ||| x)
  else if x < 2 ^ 30 then toBeBytes 4 ((0b10 <<< 30) ||| x)
  else toBeBytes 8 ((0b11 <<< 62) ||| x)

theorem getU8_eq_ok {buf rest : List UInt8} {b : UInt8}
    (h : getU8 buf = .ok (b, rest)) : buf = b :: rest := by
  cases buf with
  | nil => simp [getU8] at h
  | cons =>
    simp only [getU8, Except.ok.injEq, Prod.mk.injEq] at h
    rw [h.1, h.2]

theorem getU32_eq_ok {buf rest : List UInt8} {x : UInt32}
    (h : getU32 buf = .ok (x, rest)) : 4 ≤ buf.length ∧ rest = buf.drop 4 := by
  simp only [getU32] at h
  split at h
  · simp at h
  · simp only [Except.ok.injEq, Prod.mk.injEq] at h
    exact ⟨by omega, h.2.symm⟩

theorem getOctets_append {n : Nat} (octets : Octets n) (rest : List UInt8) :
    getOctets n (octets.1 ++ rest) = .ok (octets, rest) := by
  have hroom : ¬ (octets.1 ++ rest).length < n := by
    rw [length_append, octets.2]
    omega
  rw [getOctets, dif_neg hroom, drop_left' octets.2]
  congr 2
  exact Subtype.ext (take_left' octets.2)

theorem getU16_append (x : UInt16) (rest : List UInt8) :
    getU16 (toBeBytes 2 x.toNat ++ rest) = .ok (x, rest) := by
  have hlength := toBeBytes_length 2 x.toNat
  have hroom : ¬ (toBeBytes 2 x.toNat ++ rest).length < 2 := by
    rw [length_append, hlength]
    omega
  rw [getU16, if_neg hroom, drop_left' hlength, take_left' hlength,
    fromBeBytes_toBeBytes x.toNat_lt, UInt16.ofNat_toNat]

theorem getU64_append (x : UInt64) (rest : List UInt8) :
    getU64 (toBeBytes 8 x.toNat ++ rest) = .ok (x, rest) := by
  have hlength := toBeBytes_length 8 x.toNat
  have hroom : ¬ (toBeBytes 8 x.toNat ++ rest).length < 8 := by
    rw [length_append, hlength]
    omega
  rw [getU64, if_neg hroom, drop_left' hlength, take_left' hlength,
    fromBeBytes_toBeBytes x.toNat_lt, UInt64.ofNat_toNat]

theorem splitFirst (tag : Fin 4) (high : Fin 64) :
    UInt8.ofNat (tag * 64 + high) >>> 6 = UInt8.ofNat tag ∧
      UInt8.ofNat (tag * 64 + high) &&& 0x3f = UInt8.ofNat high := by
  revert tag high
  decide +kernel

theorem reads_tagged (tag : Fin 4) (tail : Nat) {x : Nat}
    (htail : varIntTail (UInt8.ofNat tag) = tail)
    (hx : x < 64 * 256 ^ tail) :
    Reads getVar (toBeBytes (tail + 1) (tag * (64 * 256 ^ tail) + x)) x := by
  intro rest
  have hpow : 0 < 256 ^ tail := Nat.pow_pos (by omega)
  have hhigh : x / 256 ^ tail < 64 := Nat.div_lt_of_lt_mul (by rwa [mul_comm])
  have hvalue : tag * (64 * 256 ^ tail) + x = x + 256 ^ tail * (tag * 64) := by ring
  have hdiv : (tag * (64 * 256 ^ tail) + x) / 256 ^ tail = tag * 64 + x / 256 ^ tail := by
    rw [hvalue, Nat.add_mul_div_left _ _ hpow, add_comm]
  have hmod : (tag * (64 * 256 ^ tail) + x) % 256 ^ tail = x % 256 ^ tail := by
    rw [hvalue, Nat.add_mul_mod_self_left]
  obtain ⟨htag, hfirst⟩ := splitFirst tag ⟨x / 256 ^ tail, hhigh⟩
  have hlength := toBeBytes_length tail (x % 256 ^ tail)
  simp only [toBeBytes, hdiv, hmod, cons_append, getVar, htag, hfirst, htail]
  rw [if_neg (by rw [length_append, hlength]; omega), take_left' hlength,
    drop_left' hlength]
  congr 2
  simp only [fromBeBytes, hlength]
  rw [fromBeBytes_toBeBytes (Nat.mod_lt _ hpow),
    UInt8.toNat_ofNat_of_lt' (lt_trans hhigh (by decide))]
  exact Nat.div_add_mod' x (256 ^ tail)

theorem tagged_or (tag : Nat) {bits x : Nat} (hx : x < 2 ^ bits) :
    (tag <<< bits) ||| x = tag * 2 ^ bits + x := by
  rw [Nat.shiftLeft_eq, mul_comm, ← Nat.two_pow_add_eq_or_of_lt hx]

theorem reads_putVar {x : Nat} (hx : x < 2 ^ 62) : Reads getVar (putVar x) x := by
  unfold putVar
  split_ifs with h₆ h₁₄ h₃₀
  · have h := reads_tagged 0 0 (x := x) rfl (by simpa using h₆)
    simpa using h
  · rw [tagged_or _ h₁₄]
    exact reads_tagged 1 1 rfl (by simpa using h₁₄)
  · rw [tagged_or _ h₃₀]
    exact reads_tagged 2 3 rfl (by simpa using h₃₀)
  · rw [tagged_or _ hx]
    exact reads_tagged 3 7 rfl (by simpa using hx)

@[simp] theorem length_putVar (x : Nat) : (putVar x).length = varIntSize x := by
  unfold putVar varIntSize
  split_ifs <;> exact toBeBytes_length _ _

theorem putVar_ne_nil (x : Nat) : putVar x ≠ [] := by
  apply ne_nil_of_length_pos
  rw [length_putVar]
  unfold varIntSize
  split_ifs <;> decide

theorem getVar_eq_ok {input rest : List UInt8} {x : Nat} (h : getVar input = .ok (x, rest)) :
    ∃ taken, input = taken ++ rest ∧ taken ≠ [] ∧ Reads getVar taken x := by
  cases input with
  | nil => simp [getVar] at h
  | cons b tail =>
    unfold getVar at h
    dsimp only at h
    split_ifs at h with hshort
    cases h
    have hlength := length_take_of_le (le_of_not_gt hshort)
    refine ⟨b :: tail.take (varIntTail (b >>> 6)), ?_, cons_ne_nil _ _, ?_⟩
    · rw [cons_append, take_append_drop]
    · intro rest
      rw [cons_append, getVar, if_neg (by rw [length_append, hlength]; omega),
        take_left' hlength, drop_left' hlength]

theorem advances_getVar : Advances getVar := by
  intro input x rest h
  obtain ⟨_, rfl, hne, -⟩ := getVar_eq_ok h
  refine ⟨suffix_append _ _, ?_⟩
  rw [length_append]
  exact Nat.lt_add_of_pos_left (length_pos_iff.mpr hne)

theorem reads_getU8 (b : UInt8) : Reads getU8 [b] b :=
  fun _ => rfl

theorem advances_getU8 : Advances getU8 := by
  intro input b rest h
  rw [getU8_eq_ok h]
  exact ⟨suffix_cons _ _, Nat.lt_succ_self _⟩

theorem leaves_getU64 : Leaves getU64 := by
  intro input x rest h
  unfold getU64 at h
  split_ifs at h
  cases h
  exact drop_suffix _ _

end Quac.Coding
