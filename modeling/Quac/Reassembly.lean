import Mathlib.Data.List.Sort
import Quac.Identifiers
import Quac.Ranges

/-!
Assembly of stream frames into an ordered stream, `connection/assembler.rs`.
-/

namespace Quac.Reassembly

open Identifiers Ranges

structure Chunk where
  offset : Nat
  bytes : Bytes

structure Buffer where
  offset : Nat
  bytes : Bytes
  allocationSize : Nat
  defragmented : Bool
deriving DecidableEq

/-- `Buffer::cmp`: the smaller offset first, then the longer buffer. -/
def Buffer.before (a b : Buffer) : Bool :=
  a.offset < b.offset || (a.offset == b.offset && b.bytes.length ≤ a.bytes.length)

/-- `BinaryHeap::push`, for a heap listed in the order it is popped. -/
def heapPush (b : Buffer) (buffers : List Buffer) : List Buffer :=
  buffers.orderedInsert (fun a c => a.before c) b

theorem heapPush_perm (b : Buffer) (buffers : List Buffer) :
    (heapPush b buffers).Perm (b :: buffers) :=
  buffers.perm_orderedInsert _ b

/-- Discard data before `offset` and flag the buffer if little of it is wasted. -/
def Buffer.tryMarkDefragment (b : Buffer) (offset : Nat) : Buffer :=
  let duplicate := offset - b.offset
  if b.bytes.length ≤ duplicate then
    { offset := b.offset.max offset, bytes := [], allocationSize := 0, defragmented := true }
  else
    let bytes := b.bytes.drop duplicate
    let defragmented := b.defragmented || decide (b.allocationSize ≤ bytes.length * 6 / 5)
    { offset := b.offset.max offset
      bytes
      allocationSize := if defragmented then bytes.length else b.allocationSize
      defragmented }

inductive Ordering
  | ordered
  /-- The offsets received, including those not read yet. -/
  | unordered (recvd : RangeSet)

structure Assembler where
  state : Ordering
  /-- The slot for a buffer that starts at the read index. -/
  next : Option Buffer
  data : List Buffer
  buffered : Nat
  allocated : Nat
  bytesRead : Nat
  stop : Nat

variable {maxLength : Nat} {a a' : Assembler} {data : List Buffer}

namespace Assembler

def new : Assembler :=
  ⟨.ordered, none, [], 0, 0, 0, 0⟩

def isOrdered (a : Assembler) : Bool :=
  match a.state with
  | .ordered => true
  | .unordered _ => false

def flushNext (a : Assembler) : Assembler :=
  match a.next with
  | some slot => { a with next := none, data := heapPush slot a.data }
  | none => a

/-- Drop what each buffer shares with those before it. -/
def dropDuplicates : Nat → List Buffer → List Buffer
  | _, [] => []
  | offset, b :: rest =>
    let b := b.tryMarkDefragment offset
    b :: dropDuplicates (b.offset + b.bytes.length) rest

/-- Merge contiguous fragmented buffers; `buffer` holds those not pushed yet,
which start at `offset`. -/
def mergeFragments (offset : Nat) (buffer : Bytes) (heap : List Buffer) : List Buffer → List Buffer
  | [] => if buffer.isEmpty then heap else heapPush ⟨offset, buffer, buffer.length, true⟩ heap
  | b :: rest =>
    if b.defragmented then
      mergeFragments offset buffer (if b.bytes.isEmpty then heap else heapPush b heap) rest
    else if b.offset ≠ offset + buffer.length then
      mergeFragments b.offset b.bytes
        (if buffer.isEmpty then heap else heapPush ⟨offset, buffer, buffer.length, true⟩ heap)
        rest
    else mergeFragments offset (buffer ++ b.bytes) heap rest

def defragment (a : Assembler) : Assembler :=
  let a := a.flushNext
  let buffers := dropDuplicates 0 a.data
  let buffered := (buffers.map fun b => b.bytes.length).sum
  { a with data := mergeFragments 0 [] [] buffers, buffered, allocated := buffered }

/-- `none` is the error of an ordered read after an unordered one. -/
def ensureOrdering (a : Assembler) (ordered : Bool) : Option Assembler :=
  if ordered && !a.isOrdered then none
  else if !ordered && a.isOrdered then
    let a := a.flushNext
    let a := if a.data.isEmpty then a else a.defragment
    let recvd := a.data.foldl (fun s b => s.insert b.offset (b.offset + b.bytes.length))
      (RangeSet.empty.insert 0 a.bytesRead)
    some { a with state := .unordered recvd }
  else some a

/-- Hand out at most `maxLength` bytes of a buffer taken off the heap. -/
def takeChunk (a : Assembler) (maxLength : Nat) (b : Buffer) (rest : List Buffer) :
    Chunk × Assembler :=
  if maxLength < b.bytes.length then
    (⟨b.offset, b.bytes.take maxLength⟩, { a with
        bytesRead := a.bytesRead + maxLength
        buffered := a.buffered - maxLength
        data := heapPush
          { b with offset := b.offset + maxLength, bytes := b.bytes.drop maxLength } rest })
  else
    (⟨b.offset, b.bytes⟩, { a with
        bytesRead := a.bytesRead + b.bytes.length
        buffered := a.buffered - b.bytes.length
        allocated := a.allocated - b.allocationSize
        data := rest })

/-- The loop of `read` over the heap, whose contents are `data`. -/
def readHeap (maxLength : Nat) (ordered : Bool) (a : Assembler) :
    List Buffer → Option Chunk × Assembler
  | [] => (none, { a with data := [] })
  | b :: rest =>
    if ordered then
      if a.bytesRead < b.offset then (none, { a with data := b :: rest })
      else if b.offset + b.bytes.length ≤ a.bytesRead then
        readHeap maxLength ordered
          { a with
            buffered := a.buffered - b.bytes.length
            allocated := a.allocated - b.allocationSize } rest
      else
        let start := a.bytesRead - b.offset
        let (chunk, a) := takeChunk { a with buffered := a.buffered - start } maxLength
          { b with offset := b.offset + start, bytes := b.bytes.drop start } rest
        (some chunk, a)
    else
      let (chunk, a) := a.takeChunk maxLength b rest
      (some chunk, a)

def read (a : Assembler) (maxLength : Nat) (ordered : Bool) : Option Chunk × Assembler :=
  match ordered, a.next with
  | true, some slot =>
    if maxLength < slot.bytes.length then
      (some ⟨slot.offset, slot.bytes.take maxLength⟩, { a with
          bytesRead := a.bytesRead + maxLength
          buffered := a.buffered - maxLength
          next := some { slot with
            offset := slot.offset + maxLength, bytes := slot.bytes.drop maxLength } })
    else
      (some ⟨slot.offset, slot.bytes⟩, { a with
          bytesRead := a.bytesRead + slot.bytes.length
          buffered := a.buffered - slot.bytes.length
          allocated := a.allocated - slot.allocationSize
          next := none })
  | ordered, _ => readHeap maxLength ordered a a.data

/-- How many reads of `maxLength` bytes the buffers can serve at most. -/
def heapPieces (maxLength : Nat) (buffers : List Buffer) : Nat :=
  (buffers.map fun b => b.bytes.length / maxLength + 1).sum

def pieces (a : Assembler) (maxLength : Nat) : Nat :=
  heapPieces maxLength (a.next.toList ++ a.data)

theorem heapPieces_cons (maxLength : Nat) (b : Buffer) (rest : List Buffer) :
    heapPieces maxLength (b :: rest) =
      b.bytes.length / maxLength + heapPieces maxLength rest + 1 := by
  simp [heapPieces, Nat.add_right_comm]

theorem heapPieces_heapPush (maxLength : Nat) (b : Buffer) (buffers : List Buffer) :
    heapPieces maxLength (heapPush b buffers) = heapPieces maxLength (b :: buffers) :=
  ((heapPush_perm b buffers).map _).sum_nat

theorem pieces_eq (a : Assembler) (maxLength : Nat) :
    a.pieces maxLength = heapPieces maxLength a.next.toList + heapPieces maxLength a.data := by
  simp [pieces, heapPieces]

theorem length_drop_div (hpos : 0 < maxLength) {bytes : Bytes} (hlong : maxLength < bytes.length) :
    (bytes.drop maxLength).length / maxLength + 1 ≤ bytes.length / maxLength := by
  exact le_of_eq (by rw [List.length_drop, Nat.div_eq_sub_div hpos (le_of_lt hlong)])

theorem takeChunk_pieces (hpos : 0 < maxLength) (a : Assembler) (b : Buffer) (rest : List Buffer) :
    heapPieces maxLength (a.takeChunk maxLength b rest).2.data + 1 ≤
      heapPieces maxLength (b :: rest) := by
  unfold takeChunk
  split_ifs with hlong
  · have hrest := length_drop_div hpos hlong
    simp only [heapPieces_heapPush, heapPieces_cons]
    omega
  · rw [heapPieces_cons]
    exact Nat.succ_le_succ (Nat.le_add_left _ _)

theorem readHeap_some (hpos : 0 < maxLength) {chunk : Chunk}
    (h : readHeap maxLength true a data = (some chunk, a')) :
    a'.next = a.next ∧ heapPieces maxLength a'.data + 1 ≤ heapPieces maxLength data := by
  induction data generalizing a with
  | nil => cases h
  | cons b rest ih =>
    simp only [readHeap, if_true] at h
    split_ifs at h
    · cases h
    · obtain ⟨hnext, hle⟩ := ih h
      refine ⟨hnext, le_trans hle ?_⟩
      rw [heapPieces_cons]
      exact Nat.le_succ_of_le (Nat.le_add_left _ _)
    · cases h
      have hle := takeChunk_pieces hpos { a with buffered := a.buffered - (a.bytesRead - b.offset) }
        { b with
          offset := b.offset + (a.bytesRead - b.offset)
          bytes := b.bytes.drop (a.bytesRead - b.offset) } rest
      have hdrop : (b.bytes.drop (a.bytesRead - b.offset)).length / maxLength ≤
          b.bytes.length / maxLength := by
        refine Nat.div_le_div_right ?_
        rw [List.length_drop]
        omega
      refine ⟨?_, ?_⟩
      · unfold takeChunk
        split_ifs <;> rfl
      · rw [heapPieces_cons] at hle ⊢
        exact Nat.le_trans hle (Nat.succ_le_succ (Nat.add_le_add_right hdrop _))

/-- Each ordered read uses up a piece. -/
theorem read_some (hpos : 0 < maxLength) {chunk : Chunk}
    (h : a.read maxLength true = (some chunk, a')) :
    a'.pieces maxLength + 1 ≤ a.pieces maxLength := by
  simp only [pieces_eq]
  rcases hnext : a.next with _ | slot
  · simp only [read, hnext] at h
    obtain ⟨hkeeps, _⟩ := readHeap_some hpos h
    rw [hkeeps, hnext]
    omega
  · simp only [read, hnext] at h
    rw [Option.toList_some, heapPieces_cons, show heapPieces maxLength [] = 0 from rfl]
    split_ifs at h with hlong
    · cases h
      have hrest := length_drop_div hpos hlong
      rw [Option.toList_some, heapPieces_cons, show heapPieces maxLength [] = 0 from rfl]
      dsimp only
      omega
    · cases h
      rw [Option.toList_none, show heapPieces maxLength [] = 0 from rfl]
      dsimp only
      generalize slot.bytes.length / maxLength = n
      omega

theorem readHeap_none (h : readHeap maxLength true a data = (none, a')) :
    a'.next = a.next ∧ a'.state = a.state ∧ readHeap maxLength true a' a'.data = (none, a') := by
  induction data generalizing a with
  | nil =>
    cases h
    exact ⟨rfl, rfl, rfl⟩
  | cons _ _ ih =>
    simp only [readHeap, if_true] at h
    split_ifs at h with hgap
    · cases h
      refine ⟨rfl, rfl, ?_⟩
      simp only [readHeap, if_true, hgap]
    · obtain ⟨hnext, hstate, hagain⟩ := ih h
      exact ⟨hnext, hstate, hagain⟩
    · cases h

theorem read_none (h : a.read maxLength true = (none, a')) :
    a'.state = a.state ∧ a'.read maxLength true = (none, a') := by
  rcases hnext : a.next with _ | _
  · simp only [read, hnext] at h
    obtain ⟨hkeeps, hstate, hagain⟩ := readHeap_none h
    refine ⟨hstate, ?_⟩
    simp only [read, hkeeps, hnext]
    exact hagain
  · simp only [read, hnext] at h
    split_ifs at h <;> cases h

theorem readHeap_bytesRead {chunk : Option Chunk}
    (h : readHeap maxLength true a data = (chunk, a')) :
    a'.bytesRead = a.bytesRead + (chunk.map fun c => c.bytes.length).getD 0 ∧
      a'.state = a.state := by
  induction data generalizing a with
  | nil =>
    cases h
    exact ⟨rfl, rfl⟩
  | cons _ _ ih =>
    simp only [readHeap, if_true] at h
    split_ifs at h
    · cases h
      exact ⟨rfl, rfl⟩
    · obtain ⟨hread, hstate⟩ := ih h
      exact ⟨hread, hstate⟩
    · cases h
      unfold takeChunk
      split_ifs with hlong
      · refine ⟨?_, rfl⟩
        simp only [Option.map_some, Option.getD_some]
        rw [List.length_take, Nat.min_eq_left (le_of_lt hlong)]
      · exact ⟨rfl, rfl⟩

theorem read_bytesRead {chunk : Option Chunk} (h : a.read maxLength true = (chunk, a')) :
    a'.bytesRead = a.bytesRead + (chunk.map fun c => c.bytes.length).getD 0 ∧
      a'.state = a.state := by
  rcases hnext : a.next with _ | _
  · simp only [read, hnext] at h
    exact readHeap_bytesRead h
  · simp only [read, hnext] at h
    split_ifs at h with hlong
    · cases h
      simp [Nat.min_eq_left (le_of_lt hlong)]
    · cases h
      exact ⟨rfl, rfl⟩

def count (a : Assembler) (b : Buffer) : Assembler :=
  { a with
    buffered := a.buffered + b.bytes.length
    allocated := a.allocated + b.allocationSize }

/-- Split the new data around the ranges already received. -/
def insertAround (allocationSize : Nat) (a : Assembler) (offset : Nat) (bytes : Bytes) :
    List (Nat × Nat) → Assembler × Nat × Bytes
  | [] => (a, offset, bytes)
  | (dupStart, dupStop) :: rest =>
    if offset < dupStart then
      let b : Buffer := ⟨offset, bytes.take (dupStart - offset), allocationSize, false⟩
      let a := { a.count b with data := heapPush b a.data }
      insertAround allocationSize a dupStop (bytes.drop (dupStop - offset)) rest
    else insertAround allocationSize a dupStop (bytes.drop (dupStop - offset)) rest

/-- The part of the new data that was not received before, with its offset. -/
def dropReceived (a : Assembler) (offset : Nat) (bytes : Bytes) (allocationSize : Nat) :
    Assembler × Nat × Bytes :=
  match a.state with
  | .unordered recvd =>
    let (duplicates, recvd) := recvd.replace offset (offset + bytes.length)
    insertAround allocationSize { a with state := .unordered recvd } offset bytes duplicates
  | .ordered =>
    if offset < a.bytesRead then
      (a, a.bytesRead, bytes.drop (a.bytesRead - offset))
    else (a, offset, bytes)

def insert (a : Assembler) (offset : Nat) (bytes : Bytes) (allocationSize : Nat) : Assembler :=
  let a := { a with stop := a.stop.max (offset + bytes.length) }
  let (a, offset, bytes) := a.dropReceived offset bytes allocationSize
  if bytes.isEmpty then a
  else
    let b : Buffer := ⟨offset, bytes, allocationSize, false⟩
    let a := a.count b
    if a.isOrdered && a.next.isNone && a.data.isEmpty && offset == a.bytesRead then
      { a with next := some b }
    else
      let a := a.flushNext
      let a := { a with data := heapPush b a.data }
      let buffered := a.buffered.min (a.stop - a.bytesRead)
      let threshold := max 32768 (buffered * 3 / 2)
      if threshold < a.allocated - buffered then a.defragment else a

theorem dropReceived_of_ordered (h : a.state = .ordered) (offset : Nat)
    (bytes : Bytes) (allocationSize : Nat) : a.dropReceived offset bytes allocationSize =
      (a, offset.max a.bytesRead, bytes.drop (a.bytesRead - offset)) := by
  simp only [dropReceived, h]
  split_ifs with hlt
  · rw [show offset.max a.bytesRead = a.bytesRead from Nat.max_eq_right (le_of_lt hlt)]
  · rw [show offset.max a.bytesRead = offset from Nat.max_eq_left (le_of_not_gt hlt),
      Nat.sub_eq_zero_of_le (le_of_not_gt hlt), List.drop_zero]

theorem flushNext_eq (a : Assembler) :
    a.flushNext = { a with next := none, data := a.next.elim a.data (heapPush · a.data) } := by
  unfold flushNext
  split
  · rename_i slot hnext
    rw [hnext]
    rfl
  · rename_i hnext
    obtain ⟨_, next, _, _, _, _, _⟩ := a
    obtain rfl : next = none := hnext
    rfl

theorem flushNext_perm (a : Assembler) : a.flushNext.data.Perm (a.next.toList ++ a.data) := by
  rw [flushNext_eq]
  rcases a.next with _ | slot
  · exact .refl _
  · exact heapPush_perm slot a.data

/-- Where an insertion can put the part of the data that was not read before. -/
theorem insert_cases (h : a.state = .ordered) (offset : Nat) (bytes : Bytes)
    (allocationSize : Nat) {b : Buffer}
    (hb : b = ⟨offset.max a.bytesRead, bytes.drop (a.bytesRead - offset), allocationSize, false⟩) :
    ∃ next data buffered allocated stop, a.insert offset bytes allocationSize =
        { a with next, data, buffered, allocated, stop } ∧
      (b.bytes = [] ∧ next = a.next ∧ data = a.data ∨
        b.offset = a.bytesRead ∧ next = some b ∧ data = [] ∧ a.next = none ∧ a.data = [] ∧
          b.bytes ≠ [] ∨
        next = none ∧ (data = heapPush b a.flushNext.data ∨
          data = mergeFragments 0 [] [] (dropDuplicates 0 (heapPush b a.flushNext.data)))) := by
  have hdrop := dropReceived_of_ordered
    (a := { a with stop := a.stop.max (offset + bytes.length) }) h offset bytes allocationSize
  unfold insert
  simp only [hdrop, ← hb]
  have hoffset : offset.max a.bytesRead = b.offset := by rw [hb]
  have hbytes : bytes.drop (a.bytesRead - offset) = b.bytes := by rw [hb]
  simp only [hoffset, hbytes]
  split_ifs with hnil hnext hdefragment
  · exact ⟨_, _, _, _, _, rfl, .inl ⟨List.isEmpty_iff.mp hnil, rfl, rfl⟩⟩
  · simp only [count, Bool.and_eq_true, beq_iff_eq, Option.isNone_iff_eq_none,
      List.isEmpty_iff] at hnext
    obtain ⟨⟨⟨-, hnone⟩, hdata⟩, hread⟩ := hnext
    exact ⟨_, _, _, _, _, rfl, .inr (.inl ⟨hread, rfl, hdata, hnone, hdata,
      fun h => hnil (List.isEmpty_iff.mpr h)⟩)⟩
  · simp only [defragment, flushNext_eq, count]
    exact ⟨_, _, _, _, _, rfl, .inr (.inr ⟨rfl, .inr rfl⟩)⟩
  · simp only [flushNext_eq, count]
    exact ⟨_, _, _, _, _, rfl, .inr (.inr ⟨rfl, .inl rfl⟩)⟩

theorem insert_ordered (h : a.state = .ordered) (offset : Nat) (bytes : Bytes)
    (allocationSize : Nat) : (a.insert offset bytes allocationSize).state = .ordered ∧
      (a.insert offset bytes allocationSize).bytesRead = a.bytesRead := by
  obtain ⟨_, _, _, _, _, heq, -⟩ :=
    insert_cases h offset bytes allocationSize rfl
  rw [heq]
  exact ⟨h, rfl⟩

def clear (a : Assembler) : Assembler :=
  { a with next := none, data := [], buffered := 0, allocated := 0 }

end Assembler

end Quac.Reassembly
