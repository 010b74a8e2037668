import Mathlib.Data.List.Basic
import Mathlib.Tactic.Ring

/-!
Big-endian numerals over bytes, of any length.  The codecs of fixed-width
integers and of variable-length integers are both read off these two maps.
-/

namespace Quac.Lib.BigEndian

/-- The number a byte string denotes, most significant byte first. -/
def fromBeBytes : List UInt8 → Nat
  | [] => 0
  | b :: bs => b.toNat * 256 ^ bs.length + fromBeBytes bs

/-- The `length` low-order bytes of a number, most significant byte first. -/
def toBeBytes : Nat → Nat → List UInt8
  | 0, _ => []
  | length + 1, value =>
    UInt8.ofNat (value / 256 ^ length) :: toBeBytes length (value % 256 ^ length)

@[simp] theorem toBeBytes_length (length value : Nat) :
    (toBeBytes length value).length = length := by
  induction length generalizing value with
  | zero => rfl
  | succ _ ih => simp [toBeBytes, ih]

theorem fromBeBytes_toBeBytes {length value : Nat} (h : value < 256 ^ length) :
    fromBeBytes (toBeBytes length value) = value := by
  induction length generalizing value with
  | zero =>
    have : value = 0 := by simpa using h
    simp [toBeBytes, fromBeBytes, this]
  | succ length ih =>
    have hpow : 0 < 256 ^ length := Nat.pow_pos (by omega)
    have hdigit : value / 256 ^ length < 256 := by
      apply Nat.div_lt_of_lt_mul
      rwa [Nat.pow_succ] at h
    simp only [toBeBytes, fromBeBytes, toBeBytes_length]
    rw [ih (Nat.mod_lt _ hpow), UInt8.toNat_ofNat_of_lt' hdigit]
    exact Nat.div_add_mod' value (256 ^ length)

theorem toBeBytes_injective {length value value' : Nat}
    (h : value < 256 ^ length) (h' : value' < 256 ^ length)
    (heq : toBeBytes length value = toBeBytes length value') : value = value' := by
  rw [← fromBeBytes_toBeBytes h, heq, fromBeBytes_toBeBytes h']

end Quac.Lib.BigEndian
