import Quac.Coding

/-!
Connection IDs and the generator that stamps the index of an engine tile into
the IDs it issues.
-/

namespace Quac.Cid

open Coding Lib.BigEndian List

def maxCidSize : Nat := 20

/-- A connection ID, as the slice it dereferences to. -/
structure ConnectionId where
  bytes : List UInt8
  length_le : bytes.length ≤ maxCidSize
  deriving DecidableEq

namespace ConnectionId

@[ext] theorem ext {cid cid' : ConnectionId} (h : cid.bytes = cid'.bytes) : cid = cid' := by
  cases cid
  cases cid'
  simpa using h

def fromBuf (buf : List UInt8) (len : Nat) (hlen : len ≤ maxCidSize) : ConnectionId × List UInt8 :=
  (⟨buf.take len, (List.length_take_le _ _).trans hlen⟩, buf.drop len)

/-- Decode from long header format: a length byte, then the ID itself. -/
def decodeLong (buf : List UInt8) : Option (ConnectionId × List UInt8) :=
  match getU8 buf with
  | .error _ => none
  | .ok (len, rest) =>
    if h : len.toNat ≤ maxCidSize ∧ len.toNat ≤ rest.length then
      some (fromBuf rest len.toNat h.1)
    else none

theorem decodeLong_eq_some {buf rest : List UInt8} {cid : ConnectionId}
    (h : decodeLong buf = some (cid, rest)) :
    ∃ len tail, buf = len :: tail ∧ len.toNat ≤ tail.length ∧
      cid.bytes = tail.take len.toNat ∧ rest = tail.drop len.toNat := by
  cases buf with
  | nil => simp [decodeLong, getU8] at h
  | cons len tail =>
    simp only [decodeLong, getU8] at h
    split at h
    · rename_i hlen
      simp only [fromBuf, Option.some.injEq, Prod.mk.injEq] at h
      refine ⟨len, tail, rfl, hlen.2, ?_, h.2.symm⟩
      rw [← h.1]
    · simp at h

def encodeLong (cid : ConnectionId) : List UInt8 :=
  UInt8.ofNat cid.bytes.length :: cid.bytes

theorem decodeLong_encodeLong (cid : ConnectionId) (rest : List UInt8) :
    decodeLong (cid.encodeLong ++ rest) = some (cid, rest) := by
  have hle : cid.bytes.length ≤ 20 := cid.length_le
  have hlen : (UInt8.ofNat cid.bytes.length).toNat = cid.bytes.length :=
    UInt8.toNat_ofNat_of_lt' (by
      have : UInt8.size = 256 := rfl
      omega)
  simp only [encodeLong, cons_append, decodeLong, getU8, fromBuf, hlen]
  rw [dif_pos ⟨cid.length_le, by simp⟩, drop_left]
  congr 2
  exact ConnectionId.ext take_left

end ConnectionId

structure InvalidCid where

def configRotation : UInt8 := 0

def serverIdLen : Nat := 4

/-- `QuicLbConnectionIdGenerator`; the two length fields are the assertions of
its constructor. -/
structure QuicLbConnectionIdGenerator where
  queueId : UInt32
  cidLen : Nat
  cidLen_le : cidLen ≤ maxCidSize
  le_cidLen : 1 + serverIdLen + 4 ≤ cidLen

namespace QuicLbConnectionIdGenerator

def nonceLen (g : QuicLbConnectionIdGenerator) : Nat := g.cidLen - 1 - serverIdLen

def serverId (g : QuicLbConnectionIdGenerator) : List UInt8 :=
  toBeBytes serverIdLen g.queueId.toNat

/-- `generate_cid`.  The random number generator supplies one byte for the low
bits of the first octet and the bytes of the nonce. -/
def generateCid (g : QuicLbConnectionIdGenerator) (random : UInt8)
    (nonce : Fin g.nonceLen → UInt8) : ConnectionId where
  bytes := ((configRotation <<< 5) ||| (random &&& 0x1f)) :: (g.serverId ++ List.ofFn nonce)
  length_le := by
    have h₁ := g.cidLen_le
    have h₂ := g.le_cidLen
    have hnonce : (List.ofFn nonce).length = g.cidLen - 1 - serverIdLen := List.length_ofFn
    simp only [serverId, List.length_cons, List.length_append, toBeBytes_length, hnonce]
    omega

def validate (g : QuicLbConnectionIdGenerator) (cid : ConnectionId) : Except InvalidCid Unit :=
  if cid.bytes.length ≠ g.cidLen then .error ⟨⟩
  else if cid.bytes.headD 0 >>> 5 ≠ configRotation then .error ⟨⟩
  else if (cid.bytes.drop 1).take serverIdLen ≠ g.serverId then .error ⟨⟩
  else .ok ()

end QuicLbConnectionIdGenerator

def decodeQueueIdQuicLb : List UInt8 → Option UInt32
  | first :: b₁ :: b₂ :: b₃ :: b₄ :: _ =>
    if first >>> 5 ≠ configRotation then none
    else some (UInt32.ofNat (fromBeBytes [b₁, b₂, b₃, b₄]))
  | _ => none

theorem firstOctet_rotation (random : UInt8) :
    ((configRotation <<< 5) ||| (random &&& 0x1f)) >>> 5 = configRotation := by
  apply UInt8.toNat_inj.mp
  have hlow : random.toNat &&& 31 < 2 ^ 5 := Nat.and_lt_two_pow _ (by decide)
  simp only [configRotation, UInt8.toNat_shiftRight, UInt8.toNat_or, UInt8.toNat_and,
    UInt8.toNat_shiftLeft, UInt8.reduceToNat, Nat.shiftRight_eq_div_pow]
  simpa using Nat.div_eq_of_lt hlow

namespace QuicLbConnectionIdGenerator

@[simp] theorem serverId_length (g : QuicLbConnectionIdGenerator) :
    g.serverId.length = serverIdLen := by
  simp [serverId]

theorem serverId_injective {g g' : QuicLbConnectionIdGenerator}
    (h : g.serverId = g'.serverId) : g.queueId = g'.queueId := by
  apply UInt32.toNat_inj.mp
  exact toBeBytes_injective g.queueId.toNat_lt g'.queueId.toNat_lt h

theorem generateCid_length (g : QuicLbConnectionIdGenerator) (random : UInt8)
    (nonce : Fin g.nonceLen → UInt8) :
    (g.generateCid random nonce).bytes.length = g.cidLen := by
  have h := g.le_cidLen
  have hnonce : (ofFn nonce).length = g.cidLen - 1 - serverIdLen := length_ofFn
  simp only [generateCid, length_cons, length_append, serverId_length, hnonce]
  omega

theorem generateCid_serverId (g : QuicLbConnectionIdGenerator) (random : UInt8)
    (nonce : Fin g.nonceLen → UInt8) :
    ((g.generateCid random nonce).bytes.drop 1).take serverIdLen = g.serverId := by
  simp only [generateCid, drop_succ_cons, drop_zero]
  rw [take_append_of_le_length (by simp), take_of_length_le (by simp)]

/-- A generator accepts an ID issued by another one exactly when both stamp the
same queue. -/
theorem validate_generateCid (g g' : QuicLbConnectionIdGenerator)
    (hlen : g'.cidLen = g.cidLen) (random : UInt8) (nonce : Fin g.nonceLen → UInt8) :
    g'.validate (g.generateCid random nonce) =
      if g.queueId = g'.queueId then .ok () else .error ⟨⟩ := by
  have hrotation : (g.generateCid random nonce).bytes.headD 0 >>> 5 = configRotation := by
    simpa [generateCid] using firstOctet_rotation random
  simp only [validate, generateCid_length, hlen, hrotation, generateCid_serverId,
    ne_eq, not_true_eq_false, if_false]
  by_cases hqueue : g.queueId = g'.queueId
  · have hid : g.serverId = g'.serverId := by simp [serverId, hqueue]
    simp [hqueue, hid]
  · have hid : g.serverId ≠ g'.serverId := fun h => hqueue (serverId_injective h)
    simp [hqueue, hid]

/-- The queue index is recovered from every ID the generator issues. -/
theorem decodeQueueIdQuicLb_generateCid (g : QuicLbConnectionIdGenerator)
    (random : UInt8) (nonce : Fin g.nonceLen → UInt8) :
    decodeQueueIdQuicLb (g.generateCid random nonce).bytes = some g.queueId := by
  have hlen : g.serverId.length = 4 := g.serverId_length
  obtain ⟨_, _, _, _, hid⟩ := length_eq_four.mp hlen
  have hqueue : fromBeBytes g.serverId = g.queueId.toNat :=
    fromBeBytes_toBeBytes g.queueId.toNat_lt
  simp only [generateCid, hid, cons_append, nil_append, decodeQueueIdQuicLb,
    firstOctet_rotation, ne_eq, not_true_eq_false, if_false]
  rw [← hid, hqueue, UInt32.ofNat_toNat]

end QuicLbConnectionIdGenerator

end Quac.Cid
