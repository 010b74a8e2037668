import Mathlib.Data.List.Forall2
import Quac.Frames

/-!
Frames are read back from what their encoders write, also in sequence, and the iterator ends on
any payload: it neither panics nor goes on after an error.
-/

namespace Quac.FrameCodec

open Cid Coding Frames Identifiers Lib.Parsing RecvHalf SendHalf List

variable {n : Nat} {bytes : Bytes} {frames : List Frame}

theorem reads_var {x : Nat} (h : x < 2 ^ 62) : Reads var (putVar x) x :=
  (reads_putVar h).mapError _

theorem reads_streamId {id : StreamId} (h : id.toNat < 2 ^ 62) :
    Reads streamId (putVar id.toNat) id := by
  refine (reads_var h).last fun rest => ?_
  rw [StreamId.ofNat_toNat]
  rfl

theorem splitTo_append (h : bytes.length = n) (rest : Bytes) :
    splitTo n (bytes ++ rest) = .ok (bytes, rest) := by
  unfold splitTo
  rw [if_pos (by rw [length_append]; omega), take_left' h, drop_left' h]

theorem remaining_apply (bytes : Bytes) : remaining bytes = .ok (bytes.length, bytes) :=
  rfl

theorem reads_takeLen {data : Bytes} (h : data.length < 2 ^ 62) :
    Reads takeLen (putVar data.length ++ data) data := by
  refine (reads_var h).bind fun rest => ?_
  rw [bind_ok (remaining_apply _), if_neg (by rw [length_append]; omega)]
  exact splitTo_append rfl rest

def decodeNext : Decoder Frame :=
  var >>= decodeFrame

theorem toNat_cidLength (id : ConnectionId) :
    (UInt8.ofNat id.bytes.length).toNat = id.bytes.length := by
  have hle : id.bytes.length ≤ 20 := id.length_le
  exact UInt8.toNat_ofNat_of_lt' (lt_of_le_of_lt hle (by decide))

theorem reads_newConnectionId {x : NewConnectionId} (hsequence : x.sequence < 2 ^ 62)
    (hretire : x.retirePriorTo ≤ x.sequence) (hid : x.id.bytes ≠ []) :
    Reads decodeNext x.encode (.newConnectionId x) := by
  have hpos := length_pos_iff.mpr hid
  have hlen := toNat_cidLength x.id
  have hle := x.id.length_le
  unfold NewConnectionId.encode
  simp only [append_assoc]
  refine (reads_var (by decide)).bind ((reads_var hsequence).bind ?_)
  refine (reads_var (lt_of_le_of_lt hretire hsequence)).bind fun rest => ?_
  have hlength : Reads (orUnexpectedEnd getU8) [UInt8.ofNat x.id.bytes.length] _ :=
    (reads_getU8 _).mapError _
  rw [if_neg (by omega), append_assoc, bind_ok (hlength _), hlen, if_neg (by omega),
    append_assoc, bind_ok (remaining_apply _),
    if_neg (by rw [length_append]; omega), bind_ok (splitTo_append rfl _)]
  have hcid : newCid x.id.bytes (x.resetToken.1 ++ rest) = .ok (x.id, x.resetToken.1 ++ rest) := by
    unfold newCid
    rw [dif_pos hle]
    rfl
  have htoken := x.resetToken.2
  rw [bind_ok hcid, bind_ok (remaining_apply _), if_neg (by rw [length_append]; omega),
    bind_ok (mapError_eq_ok_iff.mpr (getOctets_append x.resetToken rest))]
  rfl

theorem causeOfClose {frameType : Option FrameType} (h : frameType ≠ some 0) :
    (if frameType.getD 0 = 0 then none else some (frameType.getD 0)) = frameType := by
  cases frameType with
  | none => rfl
  | some => exact if_neg fun hty => h (congrArg some hty)

theorem reads_reason {reason : Bytes} (h : reason.length < 2 ^ 62) (room : Nat) :
    Reads takeLen (putVar (reason.length.min room) ++ reason.take (reason.length.min room))
      (reason.take (reason.length.min room)) := by
  have hlt := lt_of_le_of_lt (length_take_le' (reason.length.min room) reason) h
  have hread := reads_takeLen hlt
  rwa [length_take_of_le (Nat.min_le_left _ _)] at hread

theorem reads_connectionClose_cut {x : ConnectionClose} (maxLen : Nat)
    (hcode : x.errorCode < 2 ^ 62) (hty : x.frameType.getD 0 < 2 ^ 62)
    (hreason : x.reason.length < 2 ^ 62) :
    Reads decodeNext (x.encode maxLen) (.close (.connection { x with
      frameType := if x.frameType.getD 0 = 0 then none else some (x.frameType.getD 0)
      reason := x.reason.take (x.reason.length.min
        (maxLen - 3 - varIntSize (x.frameType.getD 0) - varIntSize x.reason.length)) })) := by
  unfold ConnectionClose.encode
  simp only [append_assoc]
  refine (reads_var (by decide)).bind ((reads_var hcode).bind ((reads_var hty).bind ?_))
  exact (reads_reason hreason _).last fun _ => rfl

theorem reads_applicationClose_cut {x : ApplicationClose} (maxLen : Nat)
    (hcode : x.errorCode < 2 ^ 62) (hreason : x.reason.length < 2 ^ 62) :
    Reads decodeNext (x.encode maxLen) (.close (.application { x with
      reason := x.reason.take
        (x.reason.length.min (maxLen - 3 - varIntSize x.reason.length)) })) := by
  unfold ApplicationClose.encode
  simp only [append_assoc]
  refine (reads_var (by decide)).bind ((reads_var hcode).bind ?_)
  exact (reads_reason hreason _).last fun _ => rfl

section Stream

theorem decodeFrame_streamType (off length fin : Bool) :
    decodeFrame (streamType off length fin) = (do
      let id ← streamId
      let offset ← takeOffset off
      let data ← takeData length
      return .stream ⟨id, offset, fin, data⟩) := by
  cases off <;> cases length <;> cases fin <;> rfl

theorem streamType_lt (off length fin : Bool) : streamType off length fin < 2 ^ 62 := by
  cases off <;> cases length <;> cases fin <;> decide

theorem reads_offset {offset : Nat} (h : offset < 2 ^ 62) :
    Reads (takeOffset (offset != 0)) (if offset ≠ 0 then putVar offset else []) offset := by
  unfold takeOffset
  by_cases hzero : offset = 0
  · rw [if_neg (by simpa using hzero), if_neg (by simpa using hzero), hzero]
    exact reads_pure 0
  · rw [if_pos (by simpa using hzero), if_pos hzero]
    exact reads_var h

def frameOf (m : StreamMeta) (data : Bytes) : Frame :=
  .stream ⟨m.id, m.start, m.fin, data⟩

variable {m : StreamMeta} {data : Bytes}

theorem reads_stream (hid : m.id.toNat < 2 ^ 62) (hstart : m.start < 2 ^ 62)
    (hlen : data.length = m.stop - m.start) (hdata : data.length < 2 ^ 62) :
    Reads decodeNext (encodeMeta m true ++ data) (frameOf m data) := by
  unfold encodeMeta
  simp only [if_true, append_assoc, ← hlen]
  refine (reads_var (streamType_lt _ _ _)).bind ?_
  rw [decodeFrame_streamType]
  refine (reads_streamId hid).bind ((reads_offset hstart).bind ?_)
  exact (reads_takeLen hdata).last fun _ => rfl

end Stream

/-- The bytes are what the encoder of the frame writes.  Numbers fit variable-length integers and
the reason of a close is not cut off. -/
inductive Encodes : Frame → Bytes → Prop
  | resetStream (x : ResetStream) (hid : x.id.toNat < 2 ^ 62) (hcode : x.errorCode < 2 ^ 62)
      (hsize : x.finalOffset < 2 ^ 62) : Encodes (.resetStream x) x.encode
  | stopSending (x : StopSending) (hid : x.id.toNat < 2 ^ 62) (hcode : x.errorCode < 2 ^ 62) :
      Encodes (.stopSending x) x.encode
  | crypto (x : Crypto) (hoffset : x.offset < 2 ^ 62) (hdata : x.data.length < 2 ^ 62) :
      Encodes (.crypto x) x.encode
  | newToken (x : NewToken) (htoken : x.token.length < 2 ^ 62) : Encodes (.newToken x) x.encode
  | stream (x : StreamFrame) (hid : x.id.toNat < 2 ^ 62) (hoffset : x.offset < 2 ^ 62)
      (hdata : x.data.length < 2 ^ 62) :
      Encodes (.stream x)
        (encodeMeta ⟨x.id, x.offset, x.offset + x.data.length, x.fin⟩ true ++ x.data)
  | datagram (x : Datagram) (hdata : x.data.length < 2 ^ 62) : Encodes (.datagram x) (x.encode true)
  | newConnectionId (x : NewConnectionId) (hsequence : x.sequence < 2 ^ 62)
      (hretire : x.retirePriorTo ≤ x.sequence) (hid : x.id.bytes ≠ []) :
      Encodes (.newConnectionId x) x.encode
  | ackFrequency (x : AckFrequency) (hsequence : x.sequence < 2 ^ 62)
      (hthreshold : x.ackElicitingThreshold < 2 ^ 62) (hdelay : x.requestMaxAckDelay < 2 ^ 62)
      (hreordering : x.reorderingThreshold < 2 ^ 62) : Encodes (.ackFrequency x) x.encode
  | connectionClose (x : ConnectionClose) (maxLen : Nat) (hcode : x.errorCode < 2 ^ 62)
      (hty : x.frameType.getD 0 < 2 ^ 62) (hcause : x.frameType ≠ some 0)
      (hreason : x.reason.length < 2 ^ 62)
      (hroom : 3 + varIntSize (x.frameType.getD 0) + varIntSize x.reason.length +
        x.reason.length ≤ maxLen) : Encodes (.close (.connection x)) (x.encode maxLen)
  | applicationClose (x : ApplicationClose) (maxLen : Nat) (hcode : x.errorCode < 2 ^ 62)
      (hreason : x.reason.length < 2 ^ 62)
      (hroom : 3 + varIntSize x.reason.length + x.reason.length ≤ maxLen) :
      Encodes (.close (.application x)) (x.encode maxLen)

theorem Encodes.reads {frame : Frame} (h : Encodes frame bytes) : Reads decodeNext bytes frame := by
  cases h with
  | resetStream _ hid hcode hsize =>
    unfold ResetStream.encode
    rw [append_assoc, append_assoc]
    refine (reads_var (by decide)).bind ?_
    refine (reads_streamId hid).bind ((reads_var hcode).bind ?_)
    exact (reads_var hsize).last fun _ => rfl
  | stopSending _ hid hcode =>
    unfold StopSending.encode
    rw [append_assoc]
    refine (reads_var (by decide)).bind ((reads_streamId hid).bind ?_)
    exact (reads_var hcode).last fun _ => rfl
  | crypto _ hoffset hdata =>
    unfold Crypto.encode
    rw [append_assoc, append_assoc]
    refine (reads_var (by decide)).bind ((reads_var hoffset).bind ?_)
    exact (reads_takeLen hdata).last fun _ => rfl
  | newToken _ htoken =>
    unfold NewToken.encode
    rw [append_assoc]
    exact (reads_var (by decide)).bind ((reads_takeLen htoken).last fun _ => rfl)
  | stream _ hid hoffset hdata =>
    exact reads_stream hid hoffset (Nat.add_sub_cancel_left _ _).symm hdata
  | datagram _ hdata =>
    unfold Datagram.encode
    rw [append_assoc]
    exact (reads_var (by decide)).bind ((reads_takeLen hdata).last fun _ => rfl)
  | newConnectionId _ hsequence hretire hid => exact reads_newConnectionId hsequence hretire hid
  | ackFrequency _ hsequence hthreshold hdelay hreordering =>
    unfold AckFrequency.encode
    rw [append_assoc, append_assoc, append_assoc]
    refine (reads_var (by decide)).bind ((reads_var hsequence).bind ?_)
    refine (reads_var hthreshold).bind ((reads_var hdelay).bind ?_)
    exact (reads_var hreordering).last fun _ => rfl
  | connectionClose x maxLen hcode hty hcause hreason =>
    have hactual : x.reason.length.min
        (maxLen - 3 - varIntSize (x.frameType.getD 0) - varIntSize x.reason.length) =
        x.reason.length := Nat.min_eq_left (by omega)
    have hcut := reads_connectionClose_cut maxLen hcode hty hreason
    rwa [causeOfClose hcause, hactual, take_length] at hcut
  | applicationClose x maxLen hcode hreason =>
    have hactual : x.reason.length.min (maxLen - 3 - varIntSize x.reason.length) =
        x.reason.length := Nat.min_eq_left (by omega)
    have hcut := reads_applicationClose_cut maxLen hcode hreason
    rwa [hactual, take_length] at hcut

abbrev Sound {α : Type} (p : Decoder α) : Prop := Safe (· = Stop.panic) p

theorem sound_orUnexpectedEnd {α : Type} {p : Parser UInt8 UnexpectedEnd α} (h : Leaves p) :
    Sound (orUnexpectedEnd p) :=
  h.safe fun _ hpanic => by cases hpanic

theorem sound_err {α : Type} (e : IterErr) : Sound (throw (.err e) : Decoder α) :=
  safe_throw fun hpanic => by cases hpanic

theorem sound_var : Sound var :=
  sound_orUnexpectedEnd advances_getVar.leaves

theorem sound_streamId : Sound streamId :=
  sound_var.bind fun _ => safe_pure _

theorem splitTo_of_le (h : n ≤ bytes.length) : splitTo n bytes = .ok (bytes.take n, bytes.drop n) :=
  if_pos h

theorem soundAt_splitTo (h : n ≤ bytes.length) : SafeAt (· = Stop.panic) (splitTo n) bytes := by
  unfold SafeAt
  rw [splitTo_of_le h]
  exact drop_suffix _ _

theorem sound_remaining : Sound remaining :=
  fun _ => suffix_refl _

theorem sound_takeLen : Sound takeLen := by
  refine sound_var.bind fun len input => ?_
  refine (sound_remaining input).bind fun left rest hleft => ?_
  cases hleft
  split_ifs with hshort
  · exact sound_err _ _
  · exact soundAt_splitTo (le_of_not_gt hshort)

theorem sound_takeRemaining : Sound takeRemaining :=
  fun _ => nil_suffix

theorem sound_takeOffset (off : Bool) : Sound (takeOffset off) := by
  unfold takeOffset
  split_ifs
  · exact sound_var
  · exact safe_pure _

theorem sound_takeData (len : Bool) : Sound (takeData len) := by
  unfold takeData
  split_ifs
  · exact sound_takeLen
  · exact sound_takeRemaining

theorem sound_scanBlocks (n smallest : Nat) : Sound (scanBlocks n smallest) := by
  induction n generalizing smallest with
  | zero => exact safe_pure _
  | succ _ ih =>
    refine sound_var.bind fun gap => ?_
    split_ifs
    · exact sound_err _
    · refine sound_var.bind fun block => ?_
      split_ifs
      · exact sound_err _
      · exact ih _

theorem sound_scanAll (largest n : Nat) : Sound (scanAll largest n) := by
  refine sound_var.bind fun firstBlock => ?_
  split_ifs
  · exact sound_err _
  · exact sound_scanBlocks _ _

theorem scanAckBlocks_eq_ok {largest len : Nat} {buf buf' : Bytes}
    (h : scanAckBlocks largest n buf = .ok (len, buf')) :
    buf' = buf ∧ ∃ rest, scanAll largest n buf = .ok ((), rest) ∧
      len = buf.length - rest.length := by
  unfold scanAckBlocks at h
  cases hscan : scanAll largest n buf with
  | error =>
    rw [hscan] at h
    cases h
  | ok r =>
    rw [hscan] at h
    cases h
    exact ⟨rfl, r.2, rfl, rfl⟩

theorem sound_scanAckBlocks (largest n : Nat) : Sound (scanAckBlocks largest n) := by
  intro buf
  have hscan := sound_scanAll largest n buf
  unfold SafeAt at hscan ⊢
  unfold scanAckBlocks
  cases hresult : scanAll largest n buf with
  | error =>
    rw [hresult] at hscan
    exact hscan
  | ok => exact suffix_refl _

theorem sound_decodeEcnCounts : Sound decodeEcnCounts :=
  sound_var.bind fun _ => sound_var.bind fun _ => sound_var.bind fun _ => safe_pure _

theorem sound_decodeAck (ty : FrameType) : Sound (decodeAck ty) := by
  refine sound_var.bind fun largest => sound_var.bind fun delay => sound_var.bind fun blocks => ?_
  intro buf
  refine (sound_scanAckBlocks largest blocks buf).bind fun n buf' hscan => ?_
  obtain ⟨rfl, _, -, rfl⟩ := scanAckBlocks_eq_ok hscan
  refine (soundAt_splitTo (Nat.sub_le _ _)).bind fun additional _ _ => ?_
  split_ifs
  · exact safe_pure _ _
  · exact (sound_decodeEcnCounts.bind fun _ => safe_pure _) _

theorem sound_decodeNewConnectionId : Sound decodeNewConnectionId := by
  refine sound_var.bind fun sequence => sound_var.bind fun retire => ?_
  split_ifs
  · exact sound_err _
  refine (sound_orUnexpectedEnd advances_getU8.leaves).bind fun length => ?_
  split_ifs with hlength
  · exact sound_err _
  intro input
  refine (sound_remaining input).bind fun left buf hleft => ?_
  cases hleft
  split_ifs with hshort
  · exact sound_err _ _
  have hsplit := splitTo_of_le (le_of_not_gt hshort)
  refine (soundAt_splitTo (le_of_not_gt hshort)).bind fun stage buf' hstage => ?_
  cases hsplit.symm.trans hstage
  -- The stage has as many bytes as the length byte says.
  have hstage : (input.take length.toNat).length ≤ maxCidSize := by
    rw [length_take]
    omega
  have hcid : Sound (newCid (input.take length.toNat)) := by
    unfold newCid
    rw [dif_pos hstage]
    exact safe_pure _
  refine (hcid _).bind fun id buf' _ => (sound_remaining buf').bind fun left buf'' hleft => ?_
  cases hleft
  split_ifs with htoken
  · exact sound_err _ _
  have hoctets : SafeAt (· = Stop.panic)
      (mapError (fun _ => Stop.panic) (getOctets resetTokenSize)) buf' := by
    unfold SafeAt mapError getOctets
    rw [dif_neg htoken]
    exact drop_suffix _ _
  exact hoctets.bind fun _ _ _ => safe_pure _ _

theorem sound_decodeRanged (ty : FrameType) : Sound (decodeRanged ty) := by
  unfold decodeRanged
  split_ifs
  · exact sound_streamId.bind fun _ => (sound_takeOffset _).bind fun _ =>
      (sound_takeData _).bind fun _ => safe_pure _
  · exact (sound_takeData _).bind fun _ => safe_pure _
  · exact sound_err _

/-- No frame makes the decoder panic, whatever its type is. -/
theorem sound_decodeFrame (ty : FrameType) : Sound (decodeFrame ty) := by
  have hvar : ∀ f : Nat → Frame, Sound (var >>= fun x => pure (f x)) :=
    fun f => sound_var.bind fun _ => safe_pure _
  have hid : ∀ f : StreamId → Nat → Frame,
      Sound (streamId >>= fun id => var >>= fun x => pure (f id x)) :=
    fun f => sound_streamId.bind fun _ => sound_var.bind fun _ => safe_pure _
  have htoken : ∀ f : UInt64 → Frame, Sound (orUnexpectedEnd getU64 >>= fun x => pure (f x)) :=
    fun f => (sound_orUnexpectedEnd leaves_getU64).bind fun _ => safe_pure _
  unfold decodeFrame
  split
  · exact safe_pure _
  · exact sound_streamId.bind fun _ => sound_var.bind fun _ => sound_var.bind fun _ => safe_pure _
  · exact sound_var.bind fun _ => sound_var.bind fun _ => sound_takeLen.bind fun _ => safe_pure _
  · exact sound_var.bind fun _ => sound_takeLen.bind fun _ => safe_pure _
  · exact hvar _
  · exact hid _
  · exact hvar _
  · exact hvar _
  · exact safe_pure _
  · exact hvar _
  · exact hid _
  · exact hvar _
  · exact hvar _
  · exact hid _
  · exact hvar _
  · exact sound_decodeAck _
  · exact sound_decodeAck _
  · exact htoken _
  · exact htoken _
  · exact sound_decodeNewConnectionId
  · exact sound_var.bind fun _ => sound_takeLen.bind fun _ => safe_pure _
  · exact sound_takeLen.bind fun _ => safe_pure _
  · exact safe_pure _
  · exact sound_var.bind fun _ => sound_var.bind fun _ => sound_var.bind fun _ =>
      sound_var.bind fun _ => safe_pure _
  · exact safe_pure _
  · exact sound_decodeRanged _

theorem advances_decodeNext : Advances decodeNext :=
  (advances_getVar.mapError _).bind fun ty => (sound_decodeFrame ty).leaves

section Items

variable {it : Iter} {frame : Frame} {rest : Bytes}

theorem tryNext_fst (it : Iter) : it.tryNext.1 = decodeNext it.bytes := by
  unfold Iter.tryNext decodeNext
  rw [bind_apply]
  cases var it.bytes with
  | error => rfl
  | ok => rfl

theorem exists_tryNext (it : Iter) : ∃ lastTy, it.tryNext = (decodeNext it.bytes, lastTy) :=
  ⟨_, Prod.ext (tryNext_fst it) rfl⟩

theorem next_of_decodeNext (it : Iter) (h : decodeNext it.bytes = .ok (frame, rest)) :
    ∃ lastTy, it.next = some (some (.ok frame), ⟨rest, lastTy⟩) := by
  have hne : it.bytes.isEmpty = false := by
    have hlt := (advances_decodeNext h).2
    cases hbytes : it.bytes with
    | nil =>
      rw [hbytes] at hlt
      exact absurd hlt (Nat.not_lt_zero _)
    | cons => rfl
  obtain ⟨lastTy, htry⟩ := exists_tryNext it
  refine ⟨lastTy, ?_⟩
  unfold Iter.next
  rw [hne, htry, h]
  rfl

/-- A frame that the iterator produces is at the front of its bytes. -/
theorem decodeNext_of_next {it' : Iter} (h : it.next = some (some (.ok frame), it')) :
    decodeNext it.bytes = .ok (frame, it'.bytes) := by
  rw [← tryNext_fst]
  unfold Iter.next at h
  split_ifs at h
  · cases h
  rcases hresult : it.tryNext with ⟨result, _⟩
  rw [hresult] at h
  rcases result with (e | _) | r
  · cases h
  · cases h
  · cases h
    rfl

theorem next_of_error {e : IterErr} (hne : it.bytes.isEmpty = false)
    (h : decodeNext it.bytes = .error (.err e)) :
    ∃ lastTy, it.next = some (some (.error ⟨lastTy, e.reason⟩), ⟨[], lastTy⟩) := by
  obtain ⟨lastTy, htry⟩ := exists_tryNext it
  refine ⟨lastTy, ?_⟩
  unfold Iter.next
  rw [hne, htry, h]
  rfl

theorem decodeNext_ne_panic (bytes : Bytes) : decodeNext bytes ≠ .error .panic := by
  intro h
  have hsound := sound_var.bind sound_decodeFrame bytes
  unfold SafeAt at hsound
  rw [show var >>= decodeFrame = decodeNext from rfl, h] at hsound
  exact hsound rfl

def Decodes (bytes : Bytes) (frames : List Frame) : Prop :=
  ∀ lastTy fuel, bytes.length < fuel → Iter.itemsWithin fuel ⟨bytes, lastTy⟩ = some (frames.map .ok)

theorem decodes_nil : Decodes [] [] := by
  intro lastTy fuel hfuel
  cases fuel with
  | zero => exact absurd hfuel (Nat.not_lt_zero _)
  | succ => rfl

theorem Decodes.cons (h : Decodes rest frames)
    (hnext : decodeNext bytes = .ok (frame, rest)) : Decodes bytes (frame :: frames) := by
  intro lastTy fuel hfuel
  have hlt := (advances_decodeNext hnext).2
  cases fuel with
  | zero => exact absurd hfuel (Nat.not_lt_zero _)
  | succ fuel =>
    obtain ⟨ty, hitem⟩ := next_of_decodeNext ⟨bytes, lastTy⟩ hnext
    unfold Iter.itemsWithin
    rw [hitem]
    dsimp only
    rw [h ty fuel (by omega)]
    rfl

theorem decodes_flatten {encodings : List Bytes}
    (h : List.Forall₂ Encodes frames encodings) : Decodes encodings.flatten frames := by
  induction h with
  | nil => exact decodes_nil
  | cons hframe _ ih =>
    exact ih.cons (hframe.reads _)

/-- An item takes at least one byte, and an error takes all that is left. -/
theorem itemsWithin_total (fuel : Nat) (it : Iter) (hfuel : it.bytes.length < fuel) :
    ∃ items, it.itemsWithin fuel = some items ∧ items.length ≤ it.bytes.length ∧
      ∀ item ∈ items.dropLast, ∃ frame, item = .ok frame := by
  induction fuel generalizing it with
  | zero => exact absurd hfuel (Nat.not_lt_zero _)
  | succ fuel ih =>
    unfold Iter.itemsWithin
    cases hempty : it.bytes.isEmpty with
    | true =>
      have hnext : it.next = some (none, it) := if_pos hempty
      rw [hnext]
      exact ⟨[], rfl, Nat.zero_le _, fun _ h => by cases h⟩
    | false =>
      cases hresult : decodeNext it.bytes with
      | ok r =>
        obtain ⟨frame, rest⟩ := r
        have hlt := (advances_decodeNext hresult).2
        obtain ⟨lastTy, hnext⟩ := next_of_decodeNext _ hresult
        obtain ⟨items, hitems, hlen, hlast⟩ := ih ⟨rest, lastTy⟩ (by dsimp only; omega)
        rw [hnext]
        dsimp only at hlen ⊢
        refine ⟨.ok frame :: items, by rw [hitems]; rfl, ?_, ?_⟩
        · rw [length_cons]
          omega
        · intro item hitem
          cases items with
          | nil => cases hitem
          | cons =>
            rcases mem_cons.mp hitem with rfl | hitem
            · exact ⟨frame, rfl⟩
            · exact hlast item hitem
      | error stop =>
        cases stop with
        | panic => exact absurd hresult (decodeNext_ne_panic _)
        | err =>
          have hpos : 0 < it.bytes.length := by
            rw [length_pos_iff]
            exact fun h => by rw [h] at hempty; cases hempty
          obtain ⟨lastTy, hnext⟩ := next_of_error hempty hresult
          rw [hnext]
          dsimp only
          rw [decodes_nil lastTy fuel (by simp only [length_nil]; omega)]
          exact ⟨[_], rfl, hpos, fun _ h => by cases h⟩

end Items

def parse (payload : Bytes) : Except TransportError (Option (List Item)) :=
  Iter.items <$> Iter.new payload

theorem parse_of_ne_nil {payload : Bytes} (h : payload ≠ []) :
    parse payload = .ok (Iter.items ⟨payload, none⟩) := by
  unfold parse Iter.new
  rw [if_neg (by simpa using h)]
  rfl

theorem Decodes.parse {payload : Bytes} (h : Decodes payload frames)
    (hne : payload ≠ []) : parse payload = .ok (some (frames.map .ok)) := by
  rw [parse_of_ne_nil hne]
  exact congrArg _ (h none _ (Nat.lt_succ_self _))

/-- A payload of frames, at least one, is taken apart into them.  An empty payload is refused; on
any other one the iterator ends without a panic, has at most one item for each byte and gives an
error only at the end. -/
theorem frames_round_trip :
    (∀ frames encodings, List.Forall₂ Encodes frames encodings → frames ≠ [] →
      parse encodings.flatten = .ok (some (frames.map .ok))) ∧
    ∀ payload,
      (payload = [] ∧ parse payload = .error ⟨.protocolViolation, "packet payload is empty"⟩) ∨
      ∃ items, parse payload = .ok (some items) ∧ items.length ≤ payload.length ∧
        ∀ item ∈ items.dropLast, ∃ frame, item = .ok frame := by
  constructor
  · intro frames encodings hencodes hne
    have hbytes : encodings.flatten ≠ [] := by
      cases hencodes with
      | nil => exact absurd rfl hne
      | cons hframe =>
        intro hnil
        rw [flatten_cons, append_eq_nil_iff] at hnil
        have hlt := (advances_decodeNext (hframe.reads [])).2
        rw [hnil.1] at hlt
        exact lt_irrefl _ hlt
    exact (decodes_flatten hencodes).parse hbytes
  · intro payload
    by_cases hne : payload = []
    · left
      rw [hne]
      exact ⟨rfl, rfl⟩
    · right
      obtain ⟨items, hitems, hlen, hlast⟩ :=
        itemsWithin_total _ ⟨payload, none⟩ (Nat.lt_succ_self _)
      exact ⟨items, by rw [parse_of_ne_nil hne]; exact congrArg _ hitems, hlen, hlast⟩

/-- A CRYPTO frame followed by a STREAM frame with a FIN. -/
theorem cryptoThenStream_round_trip : parse (Crypto.encode ⟨0, [1, 2, 3]⟩ ++
      (encodeMeta ⟨⟨.client, .bi, 1⟩, 70, 72, true⟩ true ++ [8, 9])) =
      .ok (some [.ok (.crypto ⟨0, [1, 2, 3]⟩),
        .ok (.stream ⟨⟨.client, .bi, 1⟩, 70, true, [8, 9]⟩)]) := by
  have hencodes : List.Forall₂ Encodes
      [.crypto ⟨0, [1, 2, 3]⟩, .stream ⟨⟨.client, .bi, 1⟩, 70, true, [8, 9]⟩]
      [Crypto.encode ⟨0, [1, 2, 3]⟩, encodeMeta ⟨⟨.client, .bi, 1⟩, 70, 72, true⟩ true ++ [8, 9]] :=
    .cons (.crypto _ (by decide) (by decide)) (.cons
      (.stream ⟨⟨.client, .bi, 1⟩, 70, true, [8, 9]⟩ (by decide) (by decide) (by decide)) .nil)
  exact frames_round_trip.1 _ _ hencodes (cons_ne_nil _ _)

/-- No frames at all are not taken apart into no frames: a packet has to have one. -/
theorem noFrames_refused : ¬ ∀ frames encodings, List.Forall₂ Encodes frames encodings →
      parse encodings.flatten = .ok (some (frames.map .ok)) := by
  intro h
  have hnil := h [] [] .nil
  cases hnil

end Quac.FrameCodec
