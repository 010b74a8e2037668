import Quac.CallAccounts

/-!
What the buffers of an assembler hold: every byte in them stands at a place where
`P` admits it.  Insertion, defragmentation and reading move bytes between buffers,
but none to another place.
-/

namespace Quac.BufferedBytes

open CallAccounts Identifiers Reassembly Assembler List

variable {bytes : Bytes} {a a' : Assembler} {b : Buffer}

variable {P : Nat → UInt8 → Prop}

def Places (P : Nat → UInt8 → Prop) (offset : Nat) (bytes : Bytes) : Prop :=
  ∀ i byte, bytes[i]? = some byte → P (offset + i) byte

theorem places_nil (offset : Nat) : Places P offset [] := by
  intro i byte h
  cases h

variable {offset : Nat}

theorem Places.drop (h : Places P offset bytes) (n : Nat) :
    Places P (offset + n) (bytes.drop n) := by
  intro i byte hi
  rw [getElem?_drop] at hi
  rw [add_assoc]
  exact h _ _ hi

theorem Places.take (h : Places P offset bytes) (n : Nat) :
    Places P offset (bytes.take n) := by
  intro i byte hi
  rw [getElem?_take] at hi
  split_ifs at hi
  exact h _ _ hi

theorem Places.append {bytes' : Bytes} (h : Places P offset bytes)
    (h' : Places P (offset + bytes.length) bytes') : Places P offset (bytes ++ bytes') := by
  intro i byte hi
  rw [getElem?_append] at hi
  split_ifs at hi with hlt
  · exact h _ _ hi
  · have := h' _ _ hi
    rwa [show offset + bytes.length + (i - bytes.length) = offset + i by omega] at this

structure Holds (P : Nat → UInt8 → Prop) (a : Assembler) : Prop where
  ordered : a.state = .ordered
  next : ∀ b ∈ a.next, b.offset = a.bytesRead ∧ Places P b.offset b.bytes
  data : ∀ b ∈ a.data, Places P b.offset b.bytes

theorem holds_new : Holds P .new :=
  ⟨rfl, fun _ h => (by cases h), fun _ h => (not_mem_nil h).elim⟩

theorem Holds.mono {Q : Nat → UInt8 → Prop} (h : Holds P a)
    (hpq : ∀ n byte, P n byte → Q n byte) : Holds Q a :=
  ⟨h.ordered, fun b hb => ⟨(h.next b hb).1, fun i byte hi => hpq _ _ ((h.next b hb).2 i byte hi)⟩,
    fun b hb i byte hi => hpq _ _ (h.data b hb i byte hi)⟩

theorem Holds.clear (h : Holds P a) : Holds P a.clear :=
  ⟨h.ordered, fun _ h => (by cases h), fun _ h => (not_mem_nil h).elim⟩

theorem mem_heapPush {c : Buffer} {buffers : List Buffer} :
    c ∈ heapPush b buffers ↔ c = b ∨ c ∈ buffers :=
  (heapPush_perm b buffers).mem_iff.trans mem_cons

theorem places_dropDuplicates (buffers : List Buffer)
    (h : ∀ b ∈ buffers, Places P b.offset b.bytes) (offset : Nat) :
    ∀ b ∈ dropDuplicates offset buffers, Places P b.offset b.bytes := by
  induction buffers generalizing offset with
  | nil => exact h
  | cons b _ ih =>
    intro c hc
    rcases mem_cons.mp hc with rfl | hc
    · have hb := h b mem_cons_self
      unfold Buffer.tryMarkDefragment
      dsimp only
      split_ifs
      · exact places_nil _
      all_goals
        rw [show b.offset.max offset = b.offset + (offset - b.offset) by
          change max b.offset offset = _
          omega]
        exact hb.drop _
    · exact ih (fun b hb => h b (mem_cons_of_mem _ hb)) _ c hc

theorem places_pushed {heap : List Buffer} (hb : Places P b.offset b.bytes)
    (h : ∀ c ∈ heap, Places P c.offset c.bytes) (flag : Bool) :
    ∀ c ∈ (if flag then heap else heapPush b heap), Places P c.offset c.bytes := by
  intro c hc
  split_ifs at hc
  · exact h c hc
  · rcases mem_heapPush.mp hc with rfl | hc
    · exact hb
    · exact h c hc

theorem places_mergeFragments (buffers : List Buffer)
    (h : ∀ b ∈ buffers, Places P b.offset b.bytes) {buffer : Bytes}
    (hbuffer : Places P offset buffer) {heap : List Buffer}
    (hheap : ∀ b ∈ heap, Places P b.offset b.bytes) :
    ∀ b ∈ mergeFragments offset buffer heap buffers, Places P b.offset b.bytes := by
  induction buffers generalizing offset buffer heap with
  | nil => exact places_pushed (b := ⟨offset, buffer, buffer.length, true⟩) hbuffer hheap _
  | cons b rest ih =>
    have hb := h b mem_cons_self
    have hrest : ∀ c ∈ rest, Places P c.offset c.bytes :=
      fun c hc => h c (mem_cons_of_mem _ hc)
    rw [mergeFragments]
    by_cases hdefragmented : b.defragmented = true
    · rw [if_pos hdefragmented]
      exact ih hrest hbuffer (places_pushed hb hheap _)
    rw [if_neg hdefragmented]
    by_cases hgap : b.offset ≠ offset + buffer.length
    · rw [if_pos hgap]
      exact ih hrest hb
        (places_pushed (b := ⟨offset, buffer, buffer.length, true⟩) hbuffer hheap _)
    · rw [if_neg hgap]
      refine ih hrest (hbuffer.append ?_) hheap
      rw [← not_ne_iff.mp hgap]
      exact hb

theorem Holds.flushNext (h : Holds P a) : ∀ b ∈ a.flushNext.data, Places P b.offset b.bytes := by
  intro b hb
  rcases mem_append.mp (a.flushNext_perm.mem_iff.mp hb) with hb | hb
  · exact (h.next b (Option.mem_toList.mp hb)).2
  · exact h.data b hb

theorem places_defragmented {buffers : List Buffer} (h : ∀ b ∈ buffers, Places P b.offset b.bytes) :
    ∀ b ∈ mergeFragments 0 [] [] (dropDuplicates 0 buffers), Places P b.offset b.bytes :=
  places_mergeFragments _ (places_dropDuplicates _ h 0) (places_nil 0)
    fun _ hb => (not_mem_nil hb).elim

theorem Holds.defragment (h : Holds P a) : Holds P a.defragment := by
  have hflushed := h.flushNext
  unfold Assembler.defragment
  rw [flushNext_eq] at hflushed ⊢
  exact ⟨h.ordered, fun _ hb => (by cases hb), places_defragmented hflushed⟩

theorem Holds.insert (h : Holds P a) (hbytes : Places P offset bytes) (allocationSize : Nat) :
    Holds P (a.insert offset bytes allocationSize) := by
  obtain ⟨_, _, _, _, _, heq, hcases⟩ :=
    insert_cases h.ordered offset bytes allocationSize rfl
  have hnew : Places P (offset.max a.bytesRead) (bytes.drop (a.bytesRead - offset)) := by
    rw [show offset.max a.bytesRead = offset + (a.bytesRead - offset) by
      change max offset a.bytesRead = _
      omega]
    exact hbytes.drop _
  have hpushed := places_pushed (b := ⟨offset.max a.bytesRead, bytes.drop (a.bytesRead - offset),
    allocationSize, false⟩) hnew h.flushNext false
  rw [heq]
  rcases hcases with ⟨-, rfl, rfl⟩ | ⟨hread, rfl, rfl, -, -⟩ | ⟨rfl, rfl | rfl⟩
  · exact { h with }
  · refine ⟨h.ordered, fun b hb => ?_, fun b hb => (not_mem_nil hb).elim⟩
    cases hb
    exact ⟨hread, hnew⟩
  · exact ⟨h.ordered, fun _ hb => (by cases hb), hpushed⟩
  · exact ⟨h.ordered, fun _ hb => (by cases hb), places_defragmented hpushed⟩

theorem takeChunk_places (maxLength : Nat) {rest : List Buffer}
    {start : Nat} (hstart : b.offset = start) (hb : Places P b.offset b.bytes)
    (hrest : ∀ c ∈ rest, Places P c.offset c.bytes) :
    Places P start (a.takeChunk maxLength b rest).1.bytes ∧
      ∀ c ∈ (a.takeChunk maxLength b rest).2.data, Places P c.offset c.bytes := by
  subst hstart
  unfold takeChunk
  split_ifs
  · refine ⟨hb.take _, fun c hc => ?_⟩
    rcases mem_heapPush.mp hc with rfl | hc
    · exact hb.drop _
    · exact hrest c hc
  · exact ⟨hb, hrest⟩

theorem readHeap_places {maxLength : Nat} {data : List Buffer}
    {chunk : Option Chunk} (hdata : ∀ b ∈ data, Places P b.offset b.bytes)
    (h : readHeap maxLength true a data = (chunk, a')) :
    a'.next = a.next ∧ (∀ c ∈ chunk, Places P a.bytesRead c.bytes) ∧
      ∀ b ∈ a'.data, Places P b.offset b.bytes := by
  induction data generalizing a with
  | nil =>
    cases h
    exact ⟨rfl, fun _ h => (by cases h), hdata⟩
  | cons b rest ih =>
    have hb := hdata b mem_cons_self
    have hrest : ∀ c ∈ rest, Places P c.offset c.bytes :=
      fun c hc => hdata c (mem_cons_of_mem _ hc)
    simp only [readHeap, if_true] at h
    split_ifs at h with hgap hread
    · cases h
      exact ⟨rfl, fun _ h => (by cases h), hdata⟩
    · obtain ⟨hnext, hchunk, hrest'⟩ := ih hrest h
      exact ⟨hnext, hchunk, hrest'⟩
    · obtain ⟨rfl, rfl⟩ := Prod.mk.inj h
      have hstart : b.offset + (a.bytesRead - b.offset) = a.bytesRead := by omega
      obtain ⟨hchunk, hrest'⟩ := takeChunk_places
        (a := { a with buffered := a.buffered - (a.bytesRead - b.offset) }) maxLength
        (b := { b with
          offset := b.offset + (a.bytesRead - b.offset)
          bytes := b.bytes.drop (a.bytesRead - b.offset) }) hstart (hb.drop _) hrest
      refine ⟨?_, fun c hc => ?_, hrest'⟩
      · unfold takeChunk
        split_ifs <;> rfl
      · cases hc
        exact hchunk

theorem Holds.read (h : Holds P a) {maxLength : Nat} {chunk : Option Chunk}
    (hread : a.read maxLength true = (chunk, a')) :
    (∀ c ∈ chunk, Places P a.bytesRead c.bytes) ∧ Holds P a' := by
  have hordered : a'.state = .ordered := (read_bytesRead hread).2.trans h.ordered
  rcases hnext : a.next with _ | slot
  · simp only [Assembler.read, hnext] at hread
    obtain ⟨hnone, hchunk, hdata⟩ := readHeap_places h.data hread
    refine ⟨hchunk, hordered, fun b hb => ?_, hdata⟩
    rw [hnone, hnext] at hb
    cases hb
  · obtain ⟨hoffset, hslot⟩ := h.next slot hnext
    simp only [Assembler.read, hnext] at hread
    split_ifs at hread
    · cases hread
      refine ⟨fun c hc => ?_, hordered, fun b hb => ?_, h.data⟩
      · cases hc
        rw [← hoffset]
        exact hslot.take _
      · cases hb
        exact ⟨by rw [hoffset], hslot.drop _⟩
    · cases hread
      refine ⟨fun c hc => ?_, hordered, fun b hb => (by cases hb), h.data⟩
      cases hc
      rw [← hoffset]
      exact hslot

theorem Holds.reads (h : Holds P a) (hreads : Reads a bytes a') :
    Places P a.bytesRead bytes ∧ Holds P a' := by
  induction hreads with
  | done => exact ⟨places_nil _, h⟩
  | chunk _ chunk hread _ ih =>
    obtain ⟨hchunk, h'⟩ := h.read hread
    obtain ⟨hbytes, h''⟩ := ih h'
    refine ⟨(hchunk chunk rfl).append ?_, h''⟩
    rw [(read_bytesRead hread).1] at hbytes
    exact hbytes
  | nothing _ hread _ ih =>
    obtain ⟨-, h'⟩ := h.read hread
    obtain ⟨hbytes, h''⟩ := ih h'
    rw [(read_bytesRead hread).1] at hbytes
    exact ⟨hbytes, h''⟩

end Quac.BufferedBytes
