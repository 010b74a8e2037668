import Quac.DcidRouting

/-!
All datagrams of one connection have to reach the tile that holds it, since the
tiles share no table.  Datagrams under IDs the server issued carry the index of
their tile; before the client has learned such an ID it addresses its datagrams
to one it chose itself.
-/

namespace Quac.ConnectionAffinity

open Lib.BigEndian Coding Cid Packet DcidRouting

variable {n : Nat} {cid : ConnectionId}

def minInitialSize : Nat := 1200

/-- The endpoint of a tile reads `header` off the datagram, for some versions it
may support. -/
def Decodes (payload : List UInt8) (header : ProtectedHeader) : Prop :=
  ∃ supportedVersions greaseQuicBit rest,
    ProtectedHeader.decode payload tileCidParser supportedVersions greaseQuicBit =
      .ok (header, rest)

/-- The datagram starts with an Initial packet addressed to `cid`; a client pads
such datagrams. -/
def IsInitialTo (cid : ConnectionId) (payload : List UInt8) : Prop :=
  ∃ header, Decodes payload header ∧ header.isInitial = true ∧
    header.dstCid = cid ∧ minInitialSize ≤ payload.length

def IsZeroRttTo (cid : ConnectionId) (payload : List UInt8) : Prop :=
  ∃ header, Decodes payload header ∧ header.is0rtt = true ∧ header.dstCid = cid

/-- The datagram is addressed to an ID that the endpoint of a tile issued. -/
def IsToIssuedCid (tile : Nat) (payload : List UInt8) : Prop :=
  ∃ header random nonce, Decodes payload header ∧
    header.dstCid = (tileGenerator (UInt32.ofNat tile)).generateCid random nonce

/-- The datagrams of one connection in the order the reader receives them, each
with the reader's random draw for it.  The connection lives on the tile its
first Initial was routed to, and only IDs issued there replace the ID the client
chose itself. -/
structure ClientRun (n : Nat) (initialCid : ConnectionId) where
  first : List UInt8
  draw : Fin n
  later : List (List UInt8 × Fin n)
  first_isInitial : IsInitialTo initialCid first
  later_conforming : ∀ d ∈ later, IsInitialTo initialCid d.1 ∨ IsZeroRttTo initialCid d.1 ∨
      IsToIssuedCid (routePacket n first draw) d.1

def ClientRun.tile {n : Nat} {cid : ConnectionId} (run : ClientRun n cid) : Nat :=
  routePacket n run.first run.draw

def ClientRun.Affine {n : Nat} {cid : ConnectionId} (run : ClientRun n cid) : Prop :=
  ∀ d ∈ run.later, routePacket n d.1 d.2 = run.tile

theorem routePacket_lt (payload : List UInt8) (draw : Fin n) : routePacket n payload draw < n := by
  unfold routePacket
  split
  · exact Nat.mod_lt _ draw.pos
  · exact draw.isLt

variable {payload : List UInt8}

theorem Decodes.extractDcid_eq {header : ProtectedHeader}
    (h : Decodes payload header) : extractDcid payload = some header.dstCid.bytes := by
  obtain ⟨_, _, _, h⟩ := h
  exact extractDcid_of_decode h

theorem IsInitialTo.extractDcid_eq
    (h : IsInitialTo cid payload) : extractDcid payload = some cid.bytes := by
  obtain ⟨_, hdecode, -, rfl, -⟩ := h
  exact hdecode.extractDcid_eq

theorem IsZeroRttTo.extractDcid_eq
    (h : IsZeroRttTo cid payload) : extractDcid payload = some cid.bytes := by
  obtain ⟨_, hdecode, -, rfl⟩ := h
  exact hdecode.extractDcid_eq

theorem IsToIssuedCid.routePacket_eq {tile : Nat} (h : IsToIssuedCid tile payload) (draw : Fin n) :
    routePacket n payload draw = (UInt32.ofNat tile).toNat % n := by
  obtain ⟨_, random, nonce, hdecode, hcid⟩ := h
  have hdcid : extractDcid payload =
      some ((tileGenerator (UInt32.ofNat tile)).generateCid random nonce).bytes := by
    rw [hdecode.extractDcid_eq, hcid]
  exact routePacket_of_generateCid hdcid draw

/-- The ID the client chose is routed by its own bits when it happens to decode
as an issued one, and by the draw of each datagram otherwise. -/
theorem routePacket_of_extractDcid (h : extractDcid payload = some cid.bytes) (draw : Fin n) :
    routePacket n payload draw = match decodeQueueIdQuicLb cid.bytes with
      | some queueId => queueId.toNat % n
      | none => draw := by
  cases hid : decodeQueueIdQuicLb cid.bytes <;> simp [routePacket, h, hid]

theorem affine_of_decodes {queueId : UInt32}
    (h : decodeQueueIdQuicLb cid.bytes = some queueId) (run : ClientRun n cid) : run.Affine := by
  have htile : run.tile = queueId.toNat % n := by
    rw [ClientRun.tile, routePacket_of_extractDcid run.first_isInitial.extractDcid_eq, h]
  intro d hd
  rcases run.later_conforming d hd with hinitial | hzero | hissued
  · rw [htile, routePacket_of_extractDcid hinitial.extractDcid_eq, h]
  · rw [htile, routePacket_of_extractDcid hzero.extractDcid_eq, h]
  · -- The tile index came from a 32-bit queue index, so stamping it loses nothing.
    have hlt : run.tile < UInt32.size := by
      rw [htile]
      exact (Nat.mod_le _ _).trans_lt queueId.toNat_lt
    rw [hissued.routePacket_eq]
    change (UInt32.ofNat run.tile).toNat % n = run.tile
    rw [UInt32.toNat_ofNat_of_lt' hlt]
    exact Nat.mod_eq_of_lt (routePacket_lt _ _)

def initialDatagram (cid : ConnectionId) (body : List UInt8) : List UInt8 :=
  0xc0 :: 0 :: 0 :: 0 :: 1 :: UInt8.ofNat cid.bytes.length ::
    (cid.bytes ++ 0 :: 0 :: 0x44 :: 0xb0 :: body)

theorem decode_initialDatagram (cid : ConnectionId) (body : List UInt8) :
    ProtectedHeader.decode (initialDatagram cid body) tileCidParser [1] false =
      decodeLongFields 0xc0 1 cid ⟨[], by decide⟩ (initialDatagram cid body).length
        (0 :: 0x44 :: 0xb0 :: body) := by
  have hdst : ConnectionId.decodeLong (UInt8.ofNat cid.bytes.length ::
      (cid.bytes ++ 0 :: 0 :: 0x44 :: 0xb0 :: body)) =
      some (cid, 0 :: 0 :: 0x44 :: 0xb0 :: body) := cid.decodeLong_encodeLong _
  have hsrc : ConnectionId.decodeLong (0 :: 0 :: 0x44 :: 0xb0 :: body) =
      some (⟨[], by decide⟩, 0 :: 0x44 :: 0xb0 :: body) :=
    ConnectionId.decodeLong_encodeLong ⟨[], by decide⟩ _
  have hversion (tail : List UInt8) : getU32 (0 :: 0 :: 0 :: 1 :: tail) = .ok (1, tail) := by
    have hlen : ¬ (0 :: 0 :: 0 :: 1 :: tail).length < 4 := by simp
    rw [getU32, if_neg hlen]
    simp [fromBeBytes]
  generalize htotal : (initialDatagram cid body).length = total
  unfold ProtectedHeader.decode
  rw [htotal]
  simp only [initialDatagram, getU8, orUnexpectedEnd, hversion, hdst, hsrc, orMalformedCid,
    bind, Except.bind]
  rfl

theorem initialDatagram_isInitialTo (cid : ConnectionId) {body : List UInt8}
    (hbody : minInitialSize ≤ body.length) :
    IsInitialTo cid (initialDatagram cid body) := by
  have hfields : ∃ tokenStart tokenEnd,
      ProtectedHeader.decode (initialDatagram cid body) tileCidParser [1] false =
        .ok (.initial ⟨cid, ⟨[], by decide⟩, tokenStart, tokenEnd, 1200, 1⟩, body) := by
    rw [decode_initialDatagram]
    have htoken : getVar (0 :: 0x44 :: 0xb0 :: body) = .ok (0, 0x44 :: 0xb0 :: body) := by
      simp [getVar, varIntTail, fromBeBytes]
    have hlen : getVar (0x44 :: 0xb0 :: body) = .ok (1200, body) := by
      have htail : varIntTail ((0x44 : UInt8) >>> 6) = 1 := by decide
      simp [getVar, htail, fromBeBytes]
    have hinitial : LongHeaderType.fromByte 0xc0 = .initial := by decide
    simp only [decodeLongFields, hinitial, htoken, hlen, orUnexpectedEnd, bind, Except.bind,
      List.drop_zero, Nat.not_lt_zero, if_false]
    exact ⟨_, _, rfl⟩
  obtain ⟨_, _, hdecode⟩ := hfields
  refine ⟨_, ⟨[1], false, body, hdecode⟩, rfl, rfl, ?_⟩
  simp only [initialDatagram, List.length_cons, List.length_append]
  omega

/-- With several tiles, a retransmitted Initial whose ID does not decode can land
on another tile than the first transmission. -/
def retransmittedInitial (n : Nat) (cid : ConnectionId) : ClientRun (n + 2) cid where
  first := initialDatagram cid (List.replicate minInitialSize 0)
  draw := 0
  later := [(initialDatagram cid (List.replicate minInitialSize 0), 1)]
  first_isInitial := initialDatagram_isInitialTo cid (by simp)
  later_conforming := by
    intro d hd
    obtain rfl := List.mem_singleton.mp hd
    exact .inl (initialDatagram_isInitialTo cid (by simp))

theorem retransmittedInitial_not_affine (h : decodeQueueIdQuicLb cid.bytes = none) :
    ¬ (retransmittedInitial n cid).Affine := by
  intro haffine
  have hinitial : extractDcid (initialDatagram cid (List.replicate minInitialSize 0)) =
      some cid.bytes :=
    (initialDatagram_isInitialTo cid (by simp)).extractDcid_eq
  have hroute := haffine _ (List.mem_singleton.mpr rfl)
  rw [ClientRun.tile, retransmittedInitial, routePacket_of_extractDcid hinitial,
    routePacket_of_extractDcid hinitial, h] at hroute
  simp at hroute

/-- The datagrams of a client all reach one tile, whatever the random draws,
exactly when there is one tile only or the ID the client chose decodes as an
issued one. -/
theorem affine_iff (n : Nat) (hn : 1 ≤ n) (cid : ConnectionId) :
    (∀ run : ClientRun n cid, run.Affine) ↔
      n = 1 ∨ (decodeQueueIdQuicLb cid.bytes).isSome = true := by
  constructor
  · intro haffine
    by_contra! hcontra
    obtain ⟨_, hnone⟩ := hcontra
    obtain ⟨m, rfl⟩ : ∃ m, n = m + 2 := ⟨n - 2, by omega⟩
    have hcid : decodeQueueIdQuicLb cid.bytes = none := by simpa using hnone
    exact retransmittedInitial_not_affine hcid (haffine (retransmittedInitial m cid))
  · rintro (rfl | hsome) run
    · intro d _
      have h₁ := routePacket_lt d.1 d.2
      have h₂ : run.tile < 1 := routePacket_lt run.first run.draw
      omega
    · obtain ⟨_, hqueue⟩ := Option.isSome_iff_exists.mp hsome
      exact affine_of_decodes hqueue run

def randomInitialCid : ConnectionId := ⟨List.replicate 8 0xff, by decide⟩

theorem affine_iff_two_tiles : (∀ run : ClientRun 2 randomInitialCid, run.Affine) ↔
      2 = 1 ∨ (decodeQueueIdQuicLb randomInitialCid.bytes).isSome = true :=
  affine_iff 2 (by decide) randomInitialCid

theorem retransmittedInitial_two_tiles : ¬ (retransmittedInitial 0 randomInitialCid).Affine :=
  retransmittedInitial_not_affine (by decide)

end Quac.ConnectionAffinity
