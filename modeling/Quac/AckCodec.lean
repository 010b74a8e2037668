import Quac.AckRanges
import Quac.FrameCodec

/-!
ACK frames.  `scan_ack_blocks` checks the blocks when the frame is decoded, and `AckIter` takes
them apart again later without a check of its own: both walk the same list of ranges.
-/

namespace Quac.AckCodec

open AckRanges Coding FrameCodec Frames Identifiers Lib.Intervals Lib.Parsing List

/-- The loop of `Ack::encode` over the ranges below `prev`. -/
def encodeBlocks (prev : Nat) : List (Nat × Nat) → Bytes
  | [] => []
  | block :: rest =>
    putVar (prev - block.2 - 1) ++ (putVar (block.2 - block.1 - 1) ++ encodeBlocks block.1 rest)

/-- `Ack::encode`; the result is `none` where there is no first range to unwrap. -/
def encode (delay : Nat) (ranges : ArrayRangeSet) (ecn : Option EcnCounts) : Option Bytes :=
  match ranges.ranges.reverse with
  | [] => none
  | first :: rest =>
    some (putVar (if ecn.isSome then FrameType.ackEcn else FrameType.ack) ++
      (putVar (first.2 - 1) ++ (putVar delay ++ (putVar (ranges.ranges.length - 1) ++
        (putVar (first.2 - first.1 - 1) ++ encodeBlocks first.1 rest ++
          (ecn.elim [] EcnCounts.encode))))))

structure AckIter where
  largest : Nat
  data : Bytes

/-- `AckIter::next`, with ranges that include their ends.  The result is `none` where the source
panics: at a block that cannot be read, or a subtraction below zero. -/
def AckIter.next (it : AckIter) : Option (Option (Nat × Nat) × AckIter) :=
  if it.data.isEmpty then some (none, it)
  else
    match getVar it.data with
    | .error _ => none
    | .ok (block, rest) =>
      if it.largest < block then none
      else
        match getVar rest with
        -- A read past the end has taken the first byte.
        | .error _ => some (some (it.largest - block, it.largest), ⟨it.largest, rest.drop 1⟩)
        | .ok (gap, rest') =>
          if it.largest < block + gap + 2 then none
          else
            some (some (it.largest - block, it.largest), ⟨it.largest - (block + gap + 2), rest'⟩)

/-- Call `next` at most `fuel` times, until there are no more ranges; `none` where it panics or
there are more. -/
def AckIter.rangesWithin : Nat → AckIter → Option (List (Nat × Nat))
  | 0, _ => none
  | fuel + 1, it =>
    match it.next with
    | none => none
    | some (none, _) => some []
    | some (some range, it') => (range :: ·) <$> it'.rangesWithin fuel

def ranges (ack : Ack) : Option (List (Nat × Nat)) :=
  AckIter.rangesWithin (ack.additional.length + 1) ⟨ack.largest, ack.additional⟩

/-- The bytes encode a block that ends at `largest` and `n` blocks below it, each after a gap;
`ranges` are these blocks. -/
inductive Blocks : Nat → Nat → Bytes → List (Nat × Nat) → Prop
  | last {largest block : Nat} {bytes : Bytes} (hne : bytes ≠ [])
      (hblock : Reads getVar bytes block)
      (hle : block ≤ largest) : Blocks largest 0 bytes [(largest - block, largest)]
  | cons {largest block gap n : Nat} {first second bytes : Bytes} {ranges : List (Nat × Nat)}
      (hne : first ≠ []) (hblock : Reads getVar first block) (hgap : Reads getVar second gap)
      (hle : block + gap + 2 ≤ largest) (h : Blocks (largest - (block + gap + 2)) n bytes ranges) :
      Blocks largest (n + 1) (first ++ (second ++ bytes)) ((largest - block, largest) :: ranges)

namespace Blocks

variable {largest n : Nat} {bytes : Bytes} {ranges : List (Nat × Nat)}

theorem length_ranges (h : Blocks largest n bytes ranges) : ranges.length = n + 1 := by
  induction h with
  | last => rfl
  | cons _ _ _ _ _ ih => rw [length_cons, ih]

theorem le_largest (h : Blocks largest n bytes ranges) : n ≤ largest := by
  induction h with
  | last => exact Nat.zero_le _
  | cons => omega

theorem head (h : Blocks largest n bytes ranges) : ranges.head?.map Prod.snd = some largest := by
  cases h with
  | last => rfl
  | cons => rfl

theorem bounds (h : Blocks largest n bytes ranges) {r : Nat × Nat} (hr : r ∈ ranges) :
    r.1 ≤ r.2 ∧ r.2 ≤ largest := by
  induction h with
  | last =>
    rw [mem_singleton] at hr
    subst hr
    exact ⟨Nat.sub_le _ _, le_rfl⟩
  | cons _ _ _ _ _ ih =>
    rcases mem_cons.mp hr with rfl | hr
    · exact ⟨Nat.sub_le _ _, le_rfl⟩
    · have hbounds := ih hr
      omega

theorem descending (h : Blocks largest n bytes ranges) :
    ranges.Pairwise fun r r' => r'.2 + 1 < r.1 := by
  induction h with
  | last => exact pairwise_singleton _ _
  | cons _ _ _ _ h ih =>
    refine pairwise_cons.mpr ⟨?_, ih⟩
    intro r hr
    have hbounds := h.bounds hr
    omega

theorem reads_scanAll (h : Blocks largest n bytes ranges) : Reads (scanAll largest n) bytes () := by
  induction h with
  | last _ hblock hle =>
    refine (hblock.mapError _).last fun rest => ?_
    rw [if_neg (not_lt.mpr hle)]
    rfl
  | cons _ hblock hgap _ _ ih =>
    refine Reads.bind (hblock.mapError _) ?_
    rw [if_neg (by omega)]
    refine Reads.bind (hgap.mapError _) ?_
    rw [if_neg (by omega), Nat.sub_sub, ← add_assoc]
    exact ih

theorem of_scanAll {buf rest : Bytes} (h : scanAll largest n buf = .ok ((), rest)) :
    ∃ bytes ranges, buf = bytes ++ rest ∧ Blocks largest n bytes ranges := by
  induction n generalizing largest buf with
  | zero =>
    obtain ⟨block, mid, hblock, hmid⟩ := bind_eq_ok_iff.mp h
    obtain ⟨taken, rfl, hne, hreads⟩ := getVar_eq_ok (mapError_eq_ok_iff.mp hblock)
    split_ifs at hmid with hle
    · cases hmid
    · cases hmid
      exact ⟨taken, _, rfl, .last hne hreads (le_of_not_gt hle)⟩
  | succ _ ih =>
    obtain ⟨_, _, hblock, hmid⟩ := bind_eq_ok_iff.mp h
    obtain ⟨taken, rfl, hne, hreads⟩ := getVar_eq_ok (mapError_eq_ok_iff.mp hblock)
    split_ifs at hmid with hle
    · cases hmid
    obtain ⟨gap, _, hgap, hrest⟩ := bind_eq_ok_iff.mp hmid
    obtain ⟨second, rfl, -, hsecond⟩ := getVar_eq_ok (mapError_eq_ok_iff.mp hgap)
    split_ifs at hrest with hroom
    · cases hrest
    -- The rest of the loop is a scan below the gap.
    obtain ⟨bytes, _, rfl, hblocks⟩ := ih hrest
    rw [Nat.sub_sub, ← add_assoc] at hblocks
    refine ⟨taken ++ (second ++ bytes), _, ?_, .cons hne hreads hsecond (by omega) hblocks⟩
    simp only [append_assoc]

theorem rangesWithin (h : Blocks largest n bytes ranges) {fuel : Nat}
    (hfuel : bytes.length < fuel) :
    AckIter.rangesWithin fuel ⟨largest, bytes⟩ = some ranges := by
  induction h generalizing fuel with
  | last hne hblock hle =>
    have hempty := isEmpty_eq_false_iff.mpr hne
    have hread := hblock []
    rw [append_nil] at hread
    have hpos := length_pos_iff.mpr hne
    obtain ⟨fuel, rfl⟩ : ∃ f, fuel = f + 2 := ⟨fuel - 2, by omega⟩
    rw [AckIter.rangesWithin, AckIter.next]
    simp only [hempty, hread, if_neg (not_lt.mpr hle)]
    rfl
  | @cons largest block _ _ first second bytes _ hne hblock hgap hle _ ih =>
    have hempty : (first ++ (second ++ bytes)).isEmpty = false := by simp [hne]
    have hpos := length_pos_iff.mpr hne
    simp only [length_append] at hfuel
    obtain ⟨fuel, rfl⟩ : ∃ f, fuel = f + 1 := ⟨fuel - 1, by omega⟩
    rw [AckIter.rangesWithin, AckIter.next]
    simp only [hempty, hblock _, hgap _, if_neg (not_lt.mpr hle),
      if_neg (show ¬ largest < block by omega)]
    rw [if_neg Bool.false_ne_true]
    dsimp only
    rw [ih (by omega)]
    rfl

end Blocks

section Encode

variable {largest n : Nat} {bytes : Bytes} {blocks : List (Nat × Nat)}

theorem blocks_encodeBlocks {first : Nat × Nat} {rest : List (Nat × Nat)}
    (hdescend : (first :: rest).Pairwise fun r r' => r'.2 < r.1)
    (hne : ∀ r ∈ first :: rest, r.1 < r.2) (hmax : first.2 ≤ 2 ^ 62) :
    Blocks (first.2 - 1) rest.length
      (putVar (first.2 - first.1 - 1) ++ encodeBlocks first.1 rest)
      ((first :: rest).map fun r => (r.1, r.2 - 1)) := by
  have hfirst := hne first mem_cons_self
  have hread : Reads getVar (putVar (first.2 - first.1 - 1)) (first.2 - first.1 - 1) :=
    reads_putVar (by omega)
  have hstart : first.2 - 1 - (first.2 - first.1 - 1) = first.1 := by omega
  induction rest generalizing first with
  | nil =>
    have h := Blocks.last (putVar_ne_nil _) hread (show _ ≤ first.2 - 1 by omega)
    rw [hstart] at h
    rw [encodeBlocks, append_nil]
    exact h
  | cons block _ ih =>
    obtain ⟨hbefore, htail⟩ := pairwise_cons.mp hdescend
    have hgap := hbefore block mem_cons_self
    have hblock := hne block (mem_cons_of_mem _ mem_cons_self)
    have h := ih htail (fun r hr => hne r (mem_cons_of_mem _ hr)) (by omega) hblock
      (reads_putVar (by omega)) (by omega)
    have hbelow : block.2 - 1 =
        first.2 - 1 - ((first.2 - first.1 - 1) + (first.1 - block.2 - 1) + 2) := by omega
    rw [hbelow] at h
    have h' := Blocks.cons (putVar_ne_nil _) hread
      (reads_putVar (show first.1 - block.2 - 1 < 2 ^ 62 by omega)) (by omega) h
    rw [hstart] at h'
    exact h'

theorem scanAckBlocks_append (h : Blocks largest n bytes blocks) (rest : Bytes) :
    scanAckBlocks largest n (bytes ++ rest) = .ok (bytes.length, bytes ++ rest) := by
  unfold scanAckBlocks
  rw [h.reads_scanAll rest]
  dsimp only
  rw [length_append, Nat.add_sub_cancel]

theorem reads_ecnCounts {x : EcnCounts} (h0 : x.ect0 < 2 ^ 62) (h1 : x.ect1 < 2 ^ 62)
    (hce : x.ce < 2 ^ 62) : Reads decodeEcnCounts x.encode x :=
  (reads_var h0).bind ((reads_var h1).bind ((reads_var hce).last fun _ => rfl))

theorem reads_ack (h : Blocks largest n bytes blocks) {delay : Nat} {ecn : Option EcnCounts}
    (hlargest : largest < 2 ^ 62) (hdelay : delay < 2 ^ 62)
    (hecn : ∀ x ∈ ecn, x.ect0 < 2 ^ 62 ∧ x.ect1 < 2 ^ 62 ∧ x.ce < 2 ^ 62) :
    Reads decodeNext (putVar (if ecn.isSome then FrameType.ackEcn else FrameType.ack) ++
      (putVar largest ++ (putVar delay ++ (putVar n ++ (bytes ++ ecn.elim [] EcnCounts.encode)))))
      (.ack ⟨largest, delay, bytes, ecn⟩) := by
  have hn : n < 2 ^ 62 := lt_of_le_of_lt h.le_largest hlargest
  have hhead : ∀ ty input, decodeFrame ty = decodeAck ty → Reads (do
        let additional ← splitTo bytes.length
        if ty ≠ FrameType.ackEcn then return Frame.ack ⟨largest, delay, additional, none⟩
        else
          let ecn ← decodeEcnCounts
          return .ack ⟨largest, delay, additional, some ecn⟩) (bytes ++ input)
        (.ack ⟨largest, delay, bytes, ecn⟩) →
      Reads (decodeFrame ty) (putVar largest ++ (putVar delay ++ (putVar n ++ (bytes ++ input))))
        (.ack ⟨largest, delay, bytes, ecn⟩) := by
    intro ty input hty hrest
    rw [hty]
    refine (reads_var hlargest).bind ((reads_var hdelay).bind ((reads_var hn).bind fun rest => ?_))
    rw [append_assoc, bind_ok (scanAckBlocks_append h _), ← append_assoc]
    exact hrest rest
  cases ecn with
  | none =>
    refine (reads_var (by decide)).bind (hhead _ _ rfl fun rest => ?_)
    rw [Option.elim_none, append_nil, bind_ok (splitTo_append rfl rest)]
    rfl
  | some counts =>
    obtain ⟨h0, h1, hce⟩ := hecn counts rfl
    refine (reads_var (x := FrameType.ackEcn) (by decide)).bind (hhead _ _ rfl fun rest => ?_)
    rw [append_assoc, bind_ok (splitTo_append rfl _)]
    exact (reads_ecnCounts h0 h1 hce).last (fun _ => rfl) rest

end Encode

def ackHead : Decoder (FrameType × Nat × Nat × Nat) := do
  let ty ← var
  let largest ← var
  let delay ← var
  let extraBlocks ← var
  return (ty, largest, delay, extraBlocks)

theorem yields_decodeFrame (ty : FrameType) :
    Yields (fun frame => ∀ ack, frame = .ack ack → decodeFrame ty = decodeAck ty)
      (decodeFrame ty) := by
  by_cases hack : decodeFrame ty = decodeAck ty
  · exact fun _ _ _ _ _ _ => hack
  · unfold decodeFrame at hack ⊢
    unfold decodeNewConnectionId decodeRanged
    split
    all_goals
      try exact absurd rfl hack
      repeat' first
        | exact yields_pure fun ack h => by cases h
        | exact yields_throw
        | refine Yields.bind fun _ => ?_
        | split_ifs

theorem blocks_of_decodeNext {bytes rest : Bytes} {ack : Ack}
    (h : decodeNext bytes = .ok (.ack ack, rest)) :
    ∃ ty extraBlocks rest' blocks,
      ackHead bytes = .ok ((ty, ack.largest, ack.delay, extraBlocks), rest') ∧
      Blocks ack.largest extraBlocks ack.additional blocks := by
  obtain ⟨ty, _, hty, h⟩ := bind_eq_ok_iff.mp h
  rw [yields_decodeFrame ty h ack rfl] at h
  obtain ⟨largest, _, hlargest, h⟩ := bind_eq_ok_iff.mp h
  obtain ⟨delay, _, hdelay, h⟩ := bind_eq_ok_iff.mp h
  obtain ⟨extraBlocks, _, hextra, h⟩ := bind_eq_ok_iff.mp h
  obtain ⟨n, buf', hscan, h⟩ := bind_eq_ok_iff.mp h
  obtain ⟨rfl, after, hall, rfl⟩ := scanAckBlocks_eq_ok hscan
  obtain ⟨blockBytes, blocks, rfl, hblocks⟩ := Blocks.of_scanAll hall
  rw [length_append, Nat.add_sub_cancel] at h
  obtain ⟨additional, buf', hsplit, h⟩ := bind_eq_ok_iff.mp h
  cases (splitTo_append rfl after).symm.trans hsplit
  have hack : ack.largest = largest ∧ ack.delay = delay ∧ ack.additional = blockBytes := by
    split_ifs at h
    · cases h
      exact ⟨rfl, rfl, rfl⟩
    · obtain ⟨_, _, -, h⟩ := bind_eq_ok_iff.mp h
      cases h
      exact ⟨rfl, rfl, rfl⟩
  obtain ⟨rfl, rfl, rfl⟩ := hack
  refine ⟨ty, extraBlocks, ack.additional ++ after, blocks, ?_, hblocks⟩
  unfold ackHead
  rw [bind_ok hty, bind_ok hlargest, bind_ok hdelay, bind_ok hextra]
  rfl

/-- The ranges of a set come back from an encoded ACK frame, largest first, with the delay and the
ECN counts.  From any bytes that the iterator takes for an ACK frame come as many ranges as the
frame announces; they descend from its largest packet number with gaps between them. -/
theorem ack_round_trip :
    (∀ (delay : Nat) (s : ArrayRangeSet) (ecn : Option EcnCounts), s.ranges ≠ [] →
      (∀ n, Within s.ranges n → n < 2 ^ 62) → delay < 2 ^ 62 →
      (∀ x ∈ ecn, x.ect0 < 2 ^ 62 ∧ x.ect1 < 2 ^ 62 ∧ x.ce < 2 ^ 62) →
      ∃ bytes ack, encode delay s ecn = some bytes ∧ parse bytes = .ok (some [.ok (.ack ack)]) ∧
        ack.delay = delay ∧ ack.ecn = ecn ∧
        ranges ack = some (s.ranges.reverse.map fun r => (r.1, r.2 - 1))) ∧
    ∀ (it it' : Iter) (ack : Ack), it.next = some (some (.ok (.ack ack)), it') →
      ∃ ty extraBlocks rest blocks,
        ackHead it.bytes = .ok ((ty, ack.largest, ack.delay, extraBlocks), rest) ∧
        ranges ack = some blocks ∧ blocks.length = extraBlocks + 1 ∧
        blocks.head?.map Prod.snd = some ack.largest ∧ (∀ r ∈ blocks, r.1 ≤ r.2) ∧
        blocks.Pairwise fun r r' => r'.2 + 1 < r.1 := by
  constructor
  · intro delay s ecn hne hs hdelay hecn
    obtain ⟨first, rest, hreverse⟩ := exists_cons_of_ne_nil (reverse_ne_nil_iff.mpr hne)
    have hmem : ∀ r ∈ first :: rest, r ∈ s.ranges :=
      fun r hr => mem_reverse.mp (hreverse ▸ hr)
    have hnonempty : ∀ r ∈ first :: rest, r.1 < r.2 :=
      fun r hr => s.canonical.nonempty r (hmem r hr)
    have hfirst := hnonempty first mem_cons_self
    have hmax : first.2 - 1 < 2 ^ 62 :=
      hs _ ⟨first, hmem _ mem_cons_self, by omega, by omega⟩
    have hdescend : (first :: rest).Pairwise fun r r' => r'.2 < r.1 := by
      rw [← hreverse, pairwise_reverse]
      exact s.canonical.spaced.apart
    have hlength : s.ranges.length - 1 = rest.length := by
      rw [← length_reverse, hreverse]
      rfl
    have hblocks := blocks_encodeBlocks hdescend hnonempty (by omega)
    have hread := reads_ack hblocks hmax hdelay hecn
    have hdecodes := decodes_nil.cons (hread [])
    rw [append_nil] at hdecodes
    refine ⟨_, ⟨first.2 - 1, delay, _, ecn⟩, ?_, hdecodes.parse ?_, rfl, rfl, ?_⟩
    · unfold encode
      rw [hreverse, hlength]
    · exact append_ne_nil_of_left_ne_nil (putVar_ne_nil _) _
    · rw [hreverse]
      exact hblocks.rangesWithin (Nat.lt_succ_self _)
  · intro it it' ack hnext
    obtain ⟨ty, extraBlocks, rest, blocks, hhead, hblocks⟩ :=
      blocks_of_decodeNext (decodeNext_of_next hnext)
    exact ⟨ty, extraBlocks, rest, blocks, hhead, hblocks.rangesWithin (Nat.lt_succ_self _),
      hblocks.length_ranges, hblocks.head, fun r hr => (hblocks.bounds hr).1, hblocks.descending⟩

/-- Packet numbers 1, 2 and 5, with ECN counts. -/
theorem ack_round_trip_two_ranges :
    ∃ bytes ack, encode 8 ((ArrayRangeSet.new.insert 1 3).insertOne 5) (some ⟨3, 0, 0⟩) =
      some bytes ∧
      parse bytes = .ok (some [.ok (.ack ack)]) ∧ ack.delay = 8 ∧ ack.ecn = some ⟨3, 0, 0⟩ ∧
      ranges ack = some [(5, 5), (1, 2)] := by
  have hranges : ((ArrayRangeSet.new.insert 1 3).insertOne 5).ranges = [(1, 3), (5, 6)] := by
    decide
  have h := ack_round_trip.1 8 ((ArrayRangeSet.new.insert 1 3).insertOne 5) (some ⟨3, 0, 0⟩)
  rw [hranges] at h
  refine h (cons_ne_nil _ _) ?_ (by decide) ?_
  · intro n hn
    simp only [within_cons, not_within_nil, or_false] at hn
    omega
  · rintro x hx
    cases hx
    decide

end Quac.AckCodec
