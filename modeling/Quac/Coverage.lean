import Quac.BufferedBytes

/-!
Which places of a stream an assembler has.  What was inserted stays until it is read,
and an ordered read that finds nothing stands before a place that is missing.
-/

namespace Quac.Coverage

open BufferedBytes CallAccounts Identifiers Reassembly Assembler List

def Spans (b : Buffer) (n : Nat) : Prop :=
  b.offset ≤ n ∧ n < b.offset + b.bytes.length

def Covers (buffers : List Buffer) (n : Nat) : Prop :=
  ∃ b ∈ buffers, Spans b n

def InOrder (buffers : List Buffer) : Prop :=
  buffers.Pairwise (·.offset ≤ ·.offset)

variable {b : Buffer} {buffers heap : List Buffer} {n : Nat}

theorem not_covers_nil (n : Nat) : ¬ Covers [] n := by
  rintro ⟨b, hb, -⟩
  exact not_mem_nil hb

theorem covers_cons : Covers (b :: buffers) n ↔ Spans b n ∨ Covers buffers n := by
  simp [Covers]

theorem not_spans_of_isEmpty (h : b.bytes.isEmpty = true) (n : Nat) : ¬ Spans b n := by
  rintro ⟨hle, hlt⟩
  rw [isEmpty_iff.mp h, length_nil] at hlt
  omega

theorem covers_heapPush : Covers (heapPush b buffers) n ↔ Spans b n ∨ Covers buffers n := by
  simp only [Covers, mem_heapPush, or_and_right, exists_or, exists_eq_left]

theorem inOrder_heapPush (h : InOrder buffers) (b : Buffer) : InOrder (heapPush b buffers) := by
  induction buffers with
  | nil => exact pairwise_singleton _ b
  | cons c _ ih =>
    obtain ⟨hc, hrest⟩ := pairwise_cons.mp h
    rw [heapPush, orderedInsert]
    split_ifs with hbefore
    · have hle : b.offset ≤ c.offset := by
        simp only [Buffer.before, Bool.or_eq_true, Bool.and_eq_true, decide_eq_true_eq,
          beq_iff_eq] at hbefore
        omega
      refine pairwise_cons.mpr ⟨fun d hd => ?_, h⟩
      rcases mem_cons.mp hd with rfl | hd
      · exact hle
      · exact le_trans hle (hc d hd)
    · have hle : c.offset ≤ b.offset := by
        simp only [Buffer.before, Bool.or_eq_true, Bool.and_eq_true, decide_eq_true_eq,
          beq_iff_eq] at hbefore
        omega
      refine pairwise_cons.mpr ⟨fun d hd => ?_, ih hrest⟩
      rcases mem_heapPush.mp hd with rfl | hd
      · exact hle
      · exact hc d hd

theorem covers_pushed :
    Covers (if b.bytes.isEmpty then heap else heapPush b heap) n ↔ Spans b n ∨ Covers heap n := by
  split_ifs with hempty
  · exact (or_iff_right (not_spans_of_isEmpty hempty n)).symm
  · exact covers_heapPush

theorem inOrder_pushed (h : InOrder heap) (b : Buffer) (flag : Bool) :
    InOrder (if flag then heap else heapPush b heap) := by
  split_ifs
  · exact h
  · exact inOrder_heapPush h b

theorem stop_tryMarkDefragment (b : Buffer) (offset : Nat) :
    (b.tryMarkDefragment offset).offset + (b.tryMarkDefragment offset).bytes.length =
      max (b.offset + b.bytes.length) offset := by
  have hmax : b.offset.max offset = max b.offset offset := rfl
  unfold Buffer.tryMarkDefragment
  dsimp only
  split_ifs
  · simp only [hmax, length_nil]
    omega
  all_goals
    simp only [hmax, length_drop]
    omega

theorem spans_tryMarkDefragment (offset : Nat) :
    Spans (b.tryMarkDefragment offset) n ↔ Spans b n ∧ offset ≤ n := by
  have hstop := stop_tryMarkDefragment b offset
  have hstart : (b.tryMarkDefragment offset).offset = max b.offset offset := by
    unfold Buffer.tryMarkDefragment
    dsimp only
    split_ifs <;> rfl
  unfold Spans
  omega

theorem covers_dropDuplicates (h : InOrder buffers) (offset : Nat) :
    Covers (dropDuplicates offset buffers) n ↔ Covers buffers n ∧ offset ≤ n := by
  induction buffers generalizing offset with
  | nil => exact iff_of_false (not_covers_nil n) fun h => not_covers_nil n h.1
  | cons b _ ih =>
    obtain ⟨hb, hrest⟩ := pairwise_cons.mp h
    rw [dropDuplicates, covers_cons, ih hrest, spans_tryMarkDefragment,
      stop_tryMarkDefragment, covers_cons]
    constructor
    · rintro (⟨hspans, hle⟩ | ⟨hcovers, hle⟩)
      · exact ⟨.inl hspans, hle⟩
      · exact ⟨.inr hcovers, by omega⟩
    · rintro ⟨hspans | ⟨c, hc, hspans⟩, hle⟩
      · exact .inl ⟨hspans, hle⟩
      · by_cases hstop : n < b.offset + b.bytes.length
        · exact .inl ⟨⟨le_trans (hb c hc) hspans.1, hstop⟩, hle⟩
        · exact .inr ⟨⟨c, hc, hspans⟩, by omega⟩

theorem covers_mergeFragments (offset : Nat) (buffer : Bytes) :
    Covers (mergeFragments offset buffer heap buffers) n ↔
      offset ≤ n ∧ n < offset + buffer.length ∨ Covers heap n ∨ Covers buffers n := by
  induction buffers generalizing offset buffer heap with
  | nil =>
    rw [mergeFragments]
    rw [covers_pushed (b := ⟨offset, buffer, buffer.length, true⟩), or_iff_left (not_covers_nil n)]
    rfl
  | cons b _ ih =>
    rw [mergeFragments, covers_cons]
    by_cases hdefragmented : b.defragmented = true
    · rw [if_pos hdefragmented, ih, covers_pushed]
      tauto
    rw [if_neg hdefragmented]
    by_cases hgap : b.offset ≠ offset + buffer.length
    · rw [if_pos hgap, ih, covers_pushed (b := ⟨offset, buffer, buffer.length, true⟩)]
      unfold Spans
      tauto
    · rw [if_neg hgap, ih, length_append]
      have hspans : offset ≤ n ∧ n < offset + (buffer.length + b.bytes.length) ↔
          (offset ≤ n ∧ n < offset + buffer.length) ∨ Spans b n := by
        unfold Spans
        omega
      tauto

theorem inOrder_mergeFragments (h : InOrder heap) (offset : Nat) (buffer : Bytes)
    (buffers : List Buffer) :
    InOrder (mergeFragments offset buffer heap buffers) := by
  induction buffers generalizing offset buffer heap with
  | nil => exact inOrder_pushed h _ _
  | cons b _ ih =>
    rw [mergeFragments]
    by_cases hdefragmented : b.defragmented = true
    · rw [if_pos hdefragmented]
      exact ih (inOrder_pushed h _ _) _ _
    rw [if_neg hdefragmented]
    by_cases hgap : b.offset ≠ offset + buffer.length
    · rw [if_pos hgap]
      exact ih (inOrder_pushed h _ _) _ _
    · rw [if_neg hgap]
      exact ih h _ _

structure Sorted (a : Assembler) : Prop where
  ordered : a.state = .ordered
  next : ∀ b ∈ a.next, b.offset = a.bytesRead ∧ b.bytes ≠ []
  data : InOrder a.data

def Has (a : Assembler) (n : Nat) : Prop :=
  n < a.bytesRead ∨ Covers (a.next.toList ++ a.data) n

variable {a a' : Assembler}

theorem sorted_new : Sorted .new :=
  ⟨rfl, fun _ h => (by cases h), .nil⟩

theorem Sorted.clear (h : Sorted a) : Sorted a.clear :=
  ⟨h.ordered, fun _ h => (by cases h), .nil⟩

theorem inOrder_flushNext (h : InOrder a.data) : InOrder a.flushNext.data := by
  rw [flushNext_eq]
  rcases a.next with _ | slot
  · exact h
  · exact inOrder_heapPush h slot

theorem covers_flushNext : Covers a.flushNext.data n ↔ Covers (a.next.toList ++ a.data) n := by
  simp only [Covers, a.flushNext_perm.mem_iff]

theorem covers_defragmented (h : InOrder buffers) :
    Covers (mergeFragments 0 [] [] (dropDuplicates 0 buffers)) n ↔ Covers buffers n := by
  simp only [covers_mergeFragments, covers_dropDuplicates h, not_covers_nil, length_nil,
    Nat.zero_le, Nat.not_lt_zero, add_zero, and_false, false_or, and_true]

theorem Sorted.defragment (h : Sorted a) :
    Sorted a.defragment ∧ ∀ n, Has a.defragment n ↔ Has a n := by
  have hflushed := inOrder_flushNext h.data
  refine ⟨?_, fun n => ?_⟩
  · unfold Assembler.defragment
    rw [flushNext_eq]
    exact ⟨h.ordered, fun _ hb => (by cases hb), inOrder_mergeFragments .nil _ _ _⟩
  · have hcovers := (covers_defragmented hflushed (n := n)).trans covers_flushNext
    unfold Assembler.defragment Has
    rw [flushNext_eq] at hcovers ⊢
    simp only [Option.toList_none, nil_append]
    rw [← hcovers]

theorem Sorted.insert (h : Sorted a) (offset : Nat) (bytes : Bytes) (allocationSize : Nat) :
    Sorted (a.insert offset bytes allocationSize) ∧
      ∀ n, Has (a.insert offset bytes allocationSize) n ↔
        Has a n ∨ offset ≤ n ∧ n < offset + bytes.length := by
  obtain ⟨b, hb⟩ : ∃ b : Buffer, b =
    ⟨offset.max a.bytesRead, bytes.drop (a.bytesRead - offset), allocationSize, false⟩ := ⟨_, rfl⟩
  obtain ⟨next, data, _, _, _, heq, hcases⟩ :=
    insert_cases h.ordered offset bytes allocationSize hb
  have hspans : ∀ n, n < a.bytesRead ∨ Spans b n ↔
      n < a.bytesRead ∨ offset ≤ n ∧ n < offset + bytes.length := by
    have hmax : offset.max a.bytesRead = max offset a.bytesRead := rfl
    simp only [hb, Spans, hmax, length_drop]
    omega
  have hadded : ∀ n, Has a n ∨ offset ≤ n ∧ n < offset + bytes.length ↔
      n < a.bytesRead ∨ Spans b n ∨ Covers (a.next.toList ++ a.data) n := by
    intro n
    have := hspans n
    unfold Has
    tauto
  have hpushed : InOrder (heapPush b a.flushNext.data) :=
    inOrder_heapPush (inOrder_flushNext h.data) b
  simp only [hadded, heq]
  rcases hcases with ⟨hnil, rfl, rfl⟩ | ⟨hread, rfl, rfl, hnext, hdata, hbytes⟩ | ⟨rfl, rfl | rfl⟩
  · refine ⟨{ h with }, fun n => ?_⟩
    rw [or_iff_right (not_spans_of_isEmpty (isEmpty_iff.mpr hnil) n)]
    rfl
  · refine ⟨⟨h.ordered, fun c hc => ?_, .nil⟩, fun n => ?_⟩
    · cases hc
      exact ⟨hread, hbytes⟩
    · rw [hnext, hdata]
      simp only [Has, Option.toList_some, Option.toList_none, append_nil, covers_cons]
  · refine ⟨⟨h.ordered, fun _ hb => (by cases hb), hpushed⟩, fun n => ?_⟩
    simp only [Has, Option.toList_none, nil_append, covers_heapPush, covers_flushNext]
  · refine ⟨⟨h.ordered, fun _ hb => (by cases hb), inOrder_mergeFragments .nil _ _ _⟩, fun n => ?_⟩
    simp only [Has, Option.toList_none, nil_append, covers_defragmented hpushed,
      covers_heapPush, covers_flushNext]

theorem takeChunk_has (hdata : InOrder buffers) (hoffset : b.offset = a.bytesRead)
    (hbytes : b.bytes ≠ []) (maxLength : Nat) :
    InOrder (a.takeChunk maxLength b buffers).2.data ∧
      (∀ n, n < (a.takeChunk maxLength b buffers).2.bytesRead ∨
        Covers (a.takeChunk maxLength b buffers).2.data n ↔
          n < a.bytesRead ∨ Spans b n ∨ Covers buffers n) ∧
      (0 < maxLength → (a.takeChunk maxLength b buffers).1.bytes ≠ []) := by
  unfold takeChunk
  split_ifs with hlong
  · refine ⟨inOrder_heapPush hdata _, fun n => ?_, fun hmax => ?_⟩
    · simp only [covers_heapPush, Spans, length_drop]
      by_cases hcovered : Covers buffers n <;> simp only [hcovered, or_true, or_false, iff_self]
      omega
    · refine length_pos_iff.mp ?_
      rw [length_take]
      omega
  · refine ⟨hdata, fun n => ?_, fun _ => hbytes⟩
    simp only [Spans]
    by_cases hcovered : Covers buffers n <;> simp only [hcovered, or_true, or_false, iff_self]
    omega

theorem readHeap_has {maxLength : Nat} {chunk : Option Chunk} (hdata : InOrder buffers)
    (h : readHeap maxLength true a buffers = (chunk, a')) :
    InOrder a'.data ∧
      (∀ n, n < a'.bytesRead ∨ Covers a'.data n ↔ n < a.bytesRead ∨ Covers buffers n) ∧
      (chunk = none → ¬ Covers a'.data a'.bytesRead) ∧
      ∀ c ∈ chunk, 0 < maxLength → c.bytes ≠ [] := by
  induction buffers generalizing a with
  | nil =>
    cases h
    exact ⟨.nil, fun _ => .rfl, fun _ => not_covers_nil _, fun _ h => by cases h⟩
  | cons b _ ih =>
    obtain ⟨hb, hrest⟩ := pairwise_cons.mp hdata
    simp only [readHeap, if_true] at h
    split_ifs at h with hgap hread
    · cases h
      refine ⟨hdata, fun _ => .rfl, fun _ => ?_, fun _ h => by cases h⟩
      rintro ⟨c, hc, hle, -⟩
      rcases mem_cons.mp hc with rfl | hc
      · exact absurd hle (Nat.not_le_of_lt hgap)
      · exact absurd (le_trans (hb c hc) hle) (Nat.not_le_of_lt hgap)
    · -- The buffer was read before.
      obtain ⟨hdata', hhas, hnone, hsome⟩ := ih hrest h
      refine ⟨hdata', fun n => (hhas n).trans ?_, hnone, hsome⟩
      rw [covers_cons]
      have : Spans b n → n < a.bytesRead := fun hspans => lt_of_lt_of_le hspans.2 hread
      tauto
    · cases h
      obtain ⟨hdata', hhas, hsome⟩ := takeChunk_has
        (a := { a with buffered := a.buffered - (a.bytesRead - b.offset) })
        (b := { b with
          offset := b.offset + (a.bytesRead - b.offset)
          bytes := b.bytes.drop (a.bytesRead - b.offset) }) hrest
        (Nat.add_sub_of_le (le_of_not_gt hgap))
        (fun hnil => by
          have := drop_eq_nil_iff.mp hnil
          omega) maxLength
      refine ⟨hdata', fun n => (hhas n).trans ?_, fun h => (by cases h), fun c hc hmax => ?_⟩
      · rw [covers_cons]
        have : n < a.bytesRead ∨ Spans { b with
            offset := b.offset + (a.bytesRead - b.offset)
            bytes := b.bytes.drop (a.bytesRead - b.offset) } n ↔ n < a.bytesRead ∨ Spans b n := by
          simp only [Spans, length_drop]
          omega
        rw [← or_assoc, this, or_assoc]
      · cases hc
        exact hsome hmax

theorem Sorted.read (h : Sorted a) {maxLength : Nat} {chunk : Option Chunk}
    (hread : a.read maxLength true = (chunk, a')) :
    Sorted a' ∧ (∀ n, Has a' n ↔ Has a n) ∧ (chunk = none → ¬ Has a' a'.bytesRead) ∧
      ∀ c ∈ chunk, 0 < maxLength → c.bytes ≠ [] := by
  have hordered : a'.state = .ordered := (read_bytesRead hread).2.trans h.ordered
  rcases hnext : a.next with _ | slot
  · simp only [Assembler.read, hnext] at hread
    have hnone : a'.next = none := (readHeap_places (P := fun _ _ => True)
      (fun _ _ _ _ _ => trivial) hread).1.trans hnext
    obtain ⟨hdata, hhas, hmissing, hsome⟩ := readHeap_has h.data hread
    refine ⟨⟨hordered, fun c hc => ?_, hdata⟩, fun n => ?_, fun hchunk => ?_, hsome⟩
    · rw [hnone] at hc
      cases hc
    · simp only [Has, hnone, hnext, Option.toList_none, nil_append]
      exact hhas n
    · simp only [Has, hnone, Option.toList_none, nil_append, lt_irrefl, false_or]
      exact hmissing hchunk
  · obtain ⟨hoffset, hbytes⟩ := h.next slot hnext
    simp only [Assembler.read, hnext] at hread
    split_ifs at hread with hlong
    · cases hread
      refine ⟨⟨hordered, fun c hc => ?_, h.data⟩, fun n => ?_, fun h => (by cases h),
        fun c hc hmax => ?_⟩
      · cases hc
        refine ⟨congrArg (· + maxLength) hoffset, fun hnil => ?_⟩
        have := drop_eq_nil_iff.mp hnil
        omega
      · simp only [Has, hnext, Option.toList_some, singleton_append, covers_cons, Spans,
          length_drop]
        by_cases hcovered : Covers a.data n <;> simp only [hcovered, or_true, or_false, iff_self]
        omega
      · cases hc
        refine length_pos_iff.mp ?_
        rw [length_take]
        omega
    · cases hread
      refine ⟨⟨hordered, fun c hc => (by cases hc), h.data⟩, fun n => ?_, fun h => (by cases h),
        fun c hc _ => ?_⟩
      · simp only [Has, hnext, Option.toList_some, Option.toList_none, singleton_append,
          nil_append, covers_cons, Spans]
        by_cases hcovered : Covers a.data n <;> simp only [hcovered, or_true, or_false, iff_self]
        omega
      · cases hc
        exact hbytes

theorem Sorted.reads {bytes : Bytes} (h : Sorted a) (hreads : Reads a bytes a') :
    Sorted a' ∧ ∀ n, Has a' n ↔ Has a n := by
  induction hreads with
  | done => exact ⟨h, fun _ => .rfl⟩
  | chunk | nothing =>
    rename_i hread _ ih
    obtain ⟨h', hhas, -⟩ := h.read hread
    obtain ⟨h'', hhas'⟩ := ih h'
    exact ⟨h'', fun n => (hhas' n).trans (hhas n)⟩

end Quac.Coverage
