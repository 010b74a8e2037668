import Mathlib.Data.List.GetD
import Quac.Packet

/-!
The reader's choice of an engine tile for a datagram.  The reader finds the
destination connection ID by byte offsets, without decoding the header; the two
ways of reading it agree on every datagram whose header decodes.
-/

namespace Quac.DcidRouting

open Cid Packet QuicLbConnectionIdGenerator List

def cidLen : Nat := 9

def extractDcid (payload : List UInt8) : Option (List UInt8) :=
  match payload with
  | [] => none
  | first :: _ =>
    if first &&& 0x80 ≠ 0 then
      if payload.length < 6 then none
      else
        let dcil := (payload.getD 5 0).toNat
        if payload.length < 6 + dcil then none
        else some ((payload.drop 6).take dcil)
    else if payload.length < 1 + cidLen then none
    else some ((payload.drop 1).take cidLen)

/-- Choose the engine tile for an incoming datagram.  `random` is the draw
`fastrand::usize(0..num_engine_tiles)` would return for it. -/
def routePacket (numEngineTiles : Nat) (payload : List UInt8)
    (random : Fin numEngineTiles) : Nat :=
  match (extractDcid payload).bind decodeQueueIdQuicLb with
  | some queueId => queueId.toNat % numEngineTiles
  | none => random

/-- The generator `quic_lb_cid_generator_factory` installs on a tile. -/
def tileGenerator (queueId : UInt32) : QuicLbConnectionIdGenerator where
  queueId := queueId
  cidLen := cidLen
  cidLen_le := by decide
  le_cidLen := by decide

def tileCidParser : ConnectionIdParser := fixedLengthConnectionIdParser cidLen (by decide)

theorem extractDcid_short {first : UInt8} {buf tail : List UInt8} {cid : ConnectionId}
    (hform : first &&& longHeaderForm = 0) (h : tileCidParser buf = .ok (cid, tail)) :
    extractDcid (first :: buf) = some cid.bytes := by
  simp only [tileCidParser, fixedLengthConnectionIdParser] at h
  split at h
  · have hbytes : cid.bytes = buf.take cidLen := by
      cases h
      rfl
    have hform' : first &&& 0x80 = 0 := hform
    have hlen' : ¬ (first :: buf).length < 1 + cidLen := by
      simp only [length_cons]
      omega
    unfold extractDcid
    simp only [hform', ne_eq, not_true_eq_false, if_false, hlen', drop_succ_cons,
      drop_zero, hbytes]
  · cases h

theorem extractDcid_long {first : UInt8} {buf tail : List UInt8} {cid : ConnectionId}
    (hform : first &&& longHeaderForm ≠ 0) (hlen : 4 ≤ buf.length)
    (h : ConnectionId.decodeLong (buf.drop 4) = some (cid, tail)) :
    extractDcid (first :: buf) = some cid.bytes := by
  obtain ⟨len, body, hbuf, _, hbytes, -⟩ := ConnectionId.decodeLong_eq_some h
  have hsplit : buf = buf.take 4 ++ len :: body := by
    rw [← hbuf, take_append_drop]
  have htake : (buf.take 4).length = 4 := by simp [hlen]
  have htotal : buf.length = 5 + body.length := by
    rw [hsplit]
    simp only [length_append, htake, length_cons]
    omega
  have hget : (first :: buf).getD 5 0 = len := by
    rw [getD_cons_succ, hsplit, getD_append_right _ _ _ _ (by omega), htake]
    rfl
  have hdrop : (first :: buf).drop 6 = body := by
    rw [drop_succ_cons, show 5 = 4 + 1 from rfl, ← drop_drop, hbuf]
    rfl
  have hform' : first &&& 0x80 ≠ 0 := hform
  have h₁ : ¬ (first :: buf).length < 6 := by
    simp only [length_cons]
    omega
  have h₂ : ¬ (first :: buf).length < 6 + len.toNat := by
    simp only [length_cons]
    omega
  unfold extractDcid
  simp only [hform', ne_eq, not_false_eq_true, if_true, h₁, if_false, hget, h₂, hdrop, hbytes]

/-- The byte-offset parser of the reader agrees with the header decoder. -/
theorem extractDcid_of_decode {payload rest : List UInt8} {supportedVersions : List UInt32}
    {greaseQuicBit : Bool} {header : ProtectedHeader}
    (h : ProtectedHeader.decode payload tileCidParser supportedVersions greaseQuicBit =
      .ok (header, rest)) :
    extractDcid payload = some header.dstCid.bytes := by
  obtain ⟨_, _, rfl, ⟨hform, tail, hparse⟩ | ⟨hform, hlen, _, hcid⟩⟩ := decode_dstCid h
  · exact extractDcid_short hform hparse
  · exact extractDcid_long hform hlen hcid

/-- A datagram addressed to an ID of some tile is routed by the stamped index
alone, whatever the random draw. -/
theorem routePacket_of_generateCid {n : Nat} {payload : List UInt8} {queueId : UInt32}
    {random : UInt8} {nonce : Fin (tileGenerator queueId).nonceLen → UInt8}
    (h : extractDcid payload = some ((tileGenerator queueId).generateCid random nonce).bytes)
    (draw : Fin n) : routePacket n payload draw = queueId.toNat % n := by
  simp only [routePacket, h, Option.bind_some, decodeQueueIdQuicLb_generateCid]
  rfl

/-- Datagrams addressed to an ID issued by tile `j` are read, routed and
validated as such on every tile. -/
theorem issuedCid_routing (n : Nat) (j : UInt32) (hj : j.toNat < n) (random : UInt8)
    (nonce : Fin (tileGenerator j).nonceLen → UInt8) (payload rest : List UInt8)
    (supportedVersions : List UInt32) (greaseQuicBit : Bool) (header : ProtectedHeader)
    (hdecode : ProtectedHeader.decode payload tileCidParser supportedVersions greaseQuicBit =
      .ok (header, rest))
    (hcid : header.dstCid = (tileGenerator j).generateCid random nonce) :
    extractDcid payload = some ((tileGenerator j).generateCid random nonce).bytes ∧
      (∀ draw : Fin n, routePacket n payload draw = j.toNat) ∧
      (tileGenerator j).validate header.dstCid = .ok () ∧
      ∀ k : UInt32, k.toNat < n → k ≠ j → (tileGenerator k).validate header.dstCid = .error ⟨⟩ := by
  have hextract : extractDcid payload =
      some ((tileGenerator j).generateCid random nonce).bytes := by
    rw [extractDcid_of_decode hdecode, hcid]
  refine ⟨hextract, ?_, ?_, ?_⟩
  · intro draw
    rw [routePacket_of_generateCid hextract, Nat.mod_eq_of_lt hj]
  · rw [hcid, validate_generateCid (tileGenerator j)
      (tileGenerator j) rfl]
    simp
  · intro k _ hk
    rw [hcid, validate_generateCid (tileGenerator j)
      (tileGenerator k) rfl]
    have hne : (tileGenerator j).queueId ≠ (tileGenerator k).queueId := fun h => hk h.symm
    simp [hne]

/-- A short-header datagram for tile 1 of two. -/
theorem issuedCid_routing_short_header : extractDcid [0x40, 0, 0, 0, 0, 1, 7, 7, 7, 7] =
        some ((tileGenerator 1).generateCid 0 fun _ => 7).bytes ∧
      (∀ draw : Fin 2, routePacket 2 [0x40, 0, 0, 0, 0, 1, 7, 7, 7, 7] draw = 1) ∧
      (tileGenerator 1).validate ((tileGenerator 1).generateCid 0 fun _ => 7) = .ok () ∧
      ∀ k : UInt32, k.toNat < 2 → k ≠ 1 →
        (tileGenerator k).validate ((tileGenerator 1).generateCid 0 fun _ => 7) = .error ⟨⟩ :=
  issuedCid_routing 2 1 (by decide) 0 (fun _ => 7) [0x40, 0, 0, 0, 0, 1, 7, 7, 7, 7] []
    [1] false (.short false ((tileGenerator 1).generateCid 0 fun _ => 7)) (by decide) (by decide)

end Quac.DcidRouting
