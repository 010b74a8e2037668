import Quac.Coverage

/-!
An assembler that is read in order, over whole runs.  However the data of a stream is cut
up and repeated when it is inserted, the reads return the stream from its start on, and the
counters are those of the buffers.
-/

namespace Quac.OrderedAssembly

open BufferedBytes Coverage Identifiers Lib.Transition Reassembly Assembler

section Counters

structure Counted (buffered allocated : Nat) (buffers : List Buffer) : Prop where
  buffered : buffered = (buffers.map fun b => b.bytes.length).sum
  allocated : allocated = (buffers.map Buffer.allocationSize).sum
  fits : ∀ b ∈ buffers, b.bytes.length ≤ b.allocationSize

variable {buffered allocated n : Nat} {b : Buffer} {buffers heap : List Buffer}

theorem counted_nil : Counted 0 0 [] :=
  ⟨rfl, rfl, fun _ h => (List.not_mem_nil h).elim⟩

theorem Counted.perm (h : Counted buffered allocated buffers) (hp : buffers.Perm heap) :
    Counted buffered allocated heap :=
  ⟨h.buffered.trans (hp.map _).sum_nat, h.allocated.trans (hp.map _).sum_nat,
    fun b hb => h.fits b (hp.mem_iff.mpr hb)⟩

theorem counted_cons : Counted buffered allocated (b :: buffers) ↔
    b.bytes.length ≤ b.allocationSize ∧ ∃ buffered' allocated',
      buffered = buffered' + b.bytes.length ∧ allocated = allocated' + b.allocationSize ∧
      Counted buffered' allocated' buffers := by
  constructor
  · rintro ⟨hbuffered, hallocated, hfits⟩
    refine ⟨hfits b List.mem_cons_self, _, _, ?_, ?_, rfl, rfl,
      fun c hc => hfits c (List.mem_cons_of_mem _ hc)⟩
    · rw [hbuffered, List.map_cons, List.sum_cons, add_comm]
    · rw [hallocated, List.map_cons, List.sum_cons, add_comm]
  · rintro ⟨hb, buffered', allocated', rfl, rfl, h⟩
    refine ⟨?_, ?_, fun c hc => ?_⟩
    · rw [List.map_cons, List.sum_cons, add_comm, ← h.buffered]
    · rw [List.map_cons, List.sum_cons, add_comm, ← h.allocated]
    · rcases List.mem_cons.mp hc with rfl | hc
      · exact hb
      · exact h.fits c hc

theorem Counted.le (h : Counted buffered allocated buffers) : buffered ≤ allocated := by
  induction buffers generalizing buffered allocated with
  | nil =>
    rw [h.buffered]
    exact Nat.zero_le _
  | cons _ _ ih =>
    obtain ⟨hb, _, _, rfl, rfl, hrest⟩ := counted_cons.mp h
    exact Nat.add_le_add (ih hrest) hb

theorem Counted.advance (h : Counted buffered allocated (b :: buffers))
    (hn : n ≤ b.bytes.length) (offset : Nat) : n ≤ buffered ∧
      Counted (buffered - n) allocated ({ b with offset, bytes := b.bytes.drop n } :: buffers) := by
  obtain ⟨hb, buffered', allocated', rfl, rfl, hrest⟩ := counted_cons.mp h
  refine ⟨by omega, counted_cons.mpr ⟨?_, buffered', allocated', ?_, rfl, hrest⟩⟩
  · rw [List.length_drop]
    exact le_trans (Nat.sub_le _ _) hb
  · rw [List.length_drop]
    omega

theorem Counted.remove (h : Counted buffered allocated (b :: buffers)) :
    b.bytes.length ≤ buffered ∧ b.allocationSize ≤ allocated ∧
      Counted (buffered - b.bytes.length) (allocated - b.allocationSize) buffers := by
  obtain ⟨-, _, _, rfl, rfl, hrest⟩ := counted_cons.mp h
  rw [Nat.add_sub_cancel, Nat.add_sub_cancel]
  exact ⟨Nat.le_add_left _ _, Nat.le_add_left _ _, hrest⟩

end Counters

section Defragment

variable {n : Nat} {b : Buffer} {buffers heap : List Buffer}

theorem allocationSize_dropDuplicates (offset : Nat) (buffers : List Buffer) :
    ∀ b ∈ dropDuplicates offset buffers, b.defragmented = true →
      b.allocationSize = b.bytes.length := by
  induction buffers generalizing offset with
  | nil => exact fun _ h => (List.not_mem_nil h).elim
  | cons _ _ ih =>
    intro b hb
    rcases List.mem_cons.mp hb with rfl | hb
    · unfold Buffer.tryMarkDefragment
      dsimp only
      split_ifs with _ hflag
      · exact fun _ => rfl
      · exact fun _ => rfl
      · exact fun h => absurd h hflag
    · exact ih _ b hb

theorem counted_pushed (h : Counted n n heap) (hb : b.allocationSize = b.bytes.length) :
    Counted (n + b.bytes.length) (n + b.bytes.length)
      (if b.bytes.isEmpty then heap else heapPush b heap) := by
  split_ifs with hempty
  · rw [List.isEmpty_iff.mp hempty]
    exact h
  · refine Counted.perm ?_ (heapPush_perm b heap).symm
    exact counted_cons.mpr ⟨le_of_eq hb.symm, n, n, rfl, by rw [hb], h⟩

theorem counted_mergeFragments (offset : Nat) (buffer : Bytes) (h : Counted n n heap)
    (hbuffers : ∀ b ∈ buffers, b.defragmented = true → b.allocationSize = b.bytes.length) :
    Counted (n + buffer.length + (buffers.map fun b => b.bytes.length).sum)
      (n + buffer.length + (buffers.map fun b => b.bytes.length).sum)
      (mergeFragments offset buffer heap buffers) := by
  have hmerged := counted_pushed (b := ⟨offset, buffer, buffer.length, true⟩) h rfl
  induction buffers generalizing n offset buffer heap with
  | nil => exact hmerged
  | cons b rest ih =>
    have hrest : ∀ c ∈ rest, c.defragmented = true → c.allocationSize = c.bytes.length :=
      fun c hc => hbuffers c (List.mem_cons_of_mem _ hc)
    rw [mergeFragments, List.map_cons, List.sum_cons]
    by_cases hflag : b.defragmented = true
    · have hpushed := counted_pushed h (hbuffers b List.mem_cons_self hflag)
      rw [if_pos hflag, show n + buffer.length + (b.bytes.length +
        (rest.map fun b => b.bytes.length).sum) = n + b.bytes.length + buffer.length +
          (rest.map fun b => b.bytes.length).sum by omega]
      exact ih _ _ hpushed hrest (counted_pushed hpushed rfl)
    rw [if_neg hflag, ← add_assoc]
    by_cases hgap : b.offset ≠ offset + buffer.length
    · rw [if_pos hgap]
      exact ih _ _ hmerged hrest (counted_pushed hmerged rfl)
    · rw [if_neg hgap, add_assoc n, ← List.length_append]
      exact ih _ _ h hrest (counted_pushed h rfl)

end Defragment

def Exact (a : Assembler) : Prop :=
  Counted a.buffered a.allocated (a.next.toList ++ a.data)

variable {a a' : Assembler}

theorem exact_defragment (a : Assembler) : Exact a.defragment := by
  have hmerged := counted_mergeFragments 0 [] counted_nil
    (allocationSize_dropDuplicates 0 a.flushNext.data)
  unfold Exact defragment
  rw [flushNext_eq] at hmerged ⊢
  simpa using hmerged

def insertFails (a : Assembler) (offset : Nat) (bytes : Bytes) (allocationSize : Nat) : Bool :=
  let a := { a with stop := a.stop.max (offset + bytes.length) }
  let (a, offset, bytes) := a.dropReceived offset bytes allocationSize
  if bytes.isEmpty then false
  else
    let a := a.count ⟨offset, bytes, allocationSize, false⟩
    if a.isOrdered && a.next.isNone && a.data.isEmpty && offset == a.bytesRead then false
    else
      decide (a.stop < a.bytesRead) ||
        decide (a.allocated < a.buffered.min (a.stop - a.bytesRead))

theorem Exact.insert (h : Exact a) (hordered : a.state = .ordered) (hread : a.bytesRead ≤ a.stop)
    {offset allocationSize : Nat} {bytes : Bytes} (hsize : bytes.length ≤ allocationSize) :
    insertFails a offset bytes allocationSize = false ∧
      Exact (a.insert offset bytes allocationSize) ∧
      (a.insert offset bytes allocationSize).stop = max a.stop (offset + bytes.length) := by
  have hdrop := dropReceived_of_ordered
    (a := { a with stop := a.stop.max (offset + bytes.length) }) hordered offset bytes
    allocationSize
  obtain ⟨b, hb⟩ : ∃ b : Buffer, b =
    ⟨offset.max a.bytesRead, bytes.drop (a.bytesRead - offset), allocationSize, false⟩ := ⟨_, rfl⟩
  have hfits : b.bytes.length ≤ b.allocationSize := by
    rw [hb, List.length_drop]
    exact le_trans (Nat.sub_le _ _) hsize
  have hcounted : Counted (a.buffered + b.bytes.length) (a.allocated + b.allocationSize)
      (b :: (a.next.toList ++ a.data)) := counted_cons.mpr ⟨hfits, _, _, rfl, rfl, h⟩
  have hpushed : Counted (a.buffered + b.bytes.length) (a.allocated + b.allocationSize)
      (heapPush b a.flushNext.data) :=
    hcounted.perm ((a.flushNext_perm.symm.cons b).trans (heapPush_perm b _).symm)
  have hstop : a.bytesRead ≤ a.stop.max (offset + bytes.length) :=
    le_trans hread (Nat.le_max_left _ _)
  constructor
  · unfold insertFails
    have hle := hcounted.le
    rw [hb] at hle
    simp only [hdrop, count]
    split_ifs
    · rfl
    · rfl
    · rw [decide_eq_false (not_lt.mpr hstop),
        decide_eq_false (not_lt.mpr (le_trans (Nat.min_le_left _ _) hle))]
      rfl
  · unfold Assembler.insert
    simp only [hdrop, ← hb]
    split_ifs with hnil hfast hdefragment
    · exact ⟨h, rfl⟩
    · simp only [count, Bool.and_eq_true, Option.isNone_iff_eq_none, List.isEmpty_iff] at hfast
      refine ⟨?_, rfl⟩
      rw [hfast.1.1.2] at hcounted
      exact hcounted
    · refine ⟨exact_defragment _, ?_⟩
      simp only [defragment, flushNext_eq, count, Nat.max_def]
    · simp only [flushNext_eq, count] at hpushed ⊢
      exact ⟨hpushed, trivial⟩

def takeFails (a : Assembler) (maxLength : Nat) (b : Buffer) : Bool :=
  if maxLength < b.bytes.length then decide (a.buffered < maxLength)
  else decide (a.buffered < b.bytes.length) || decide (a.allocated < b.allocationSize)

def readHeapFails (maxLength : Nat) (a : Assembler) : List Buffer → Bool
  | [] => false
  | b :: rest =>
    if a.bytesRead < b.offset then false
    else if b.offset + b.bytes.length ≤ a.bytesRead then
      decide (a.buffered < b.bytes.length) || decide (a.allocated < b.allocationSize) ||
        readHeapFails maxLength
          { a with
            buffered := a.buffered - b.bytes.length
            allocated := a.allocated - b.allocationSize } rest
    else
      let start := a.bytesRead - b.offset
      decide (a.buffered < start) ||
        takeFails { a with buffered := a.buffered - start } maxLength
          { b with offset := b.offset + start, bytes := b.bytes.drop start }

def readFails (a : Assembler) (maxLength : Nat) : Bool :=
  match a.next with
  | some slot => takeFails a maxLength slot
  | none => readHeapFails maxLength a a.data

theorem counted_takeChunk {b : Buffer} {rest : List Buffer}
    (h : Counted a.buffered a.allocated (b :: rest)) (maxLength : Nat) :
    takeFails a maxLength b = false ∧
      Counted (a.takeChunk maxLength b rest).2.buffered (a.takeChunk maxLength b rest).2.allocated
        (a.takeChunk maxLength b rest).2.data ∧
      (a.takeChunk maxLength b rest).1.offset = b.offset ∧
      (a.takeChunk maxLength b rest).2.stop = a.stop := by
  unfold takeFails takeChunk
  split_ifs with hlong
  · obtain ⟨hle, hrest⟩ := h.advance (le_of_lt hlong) (b.offset + maxLength)
    exact ⟨decide_eq_false (not_lt.mpr hle), hrest.perm (heapPush_perm _ _).symm, rfl, rfl⟩
  · obtain ⟨hle, hle', hrest⟩ := h.remove
    refine ⟨?_, hrest, rfl, rfl⟩
    rw [decide_eq_false (not_lt.mpr hle), decide_eq_false (not_lt.mpr hle'), Bool.or_self]

theorem counted_readHeap {maxLength : Nat} {data : List Buffer} {chunk : Option Chunk}
    (h : Counted a.buffered a.allocated data)
    (hread : readHeap maxLength true a data = (chunk, a')) :
    readHeapFails maxLength a data = false ∧ Counted a'.buffered a'.allocated a'.data ∧
      (∀ c ∈ chunk, c.offset = a.bytesRead) ∧ a'.stop = a.stop ∧ a'.next = a.next := by
  induction data generalizing a with
  | nil =>
    cases hread
    exact ⟨rfl, h, fun _ h => (by cases h), rfl, rfl⟩
  | cons b _ ih =>
    unfold readHeapFails
    simp only [readHeap, if_true] at hread
    split_ifs at hread ⊢ with hgap hpast
    · cases hread
      exact ⟨rfl, h, fun _ h => (by cases h), rfl, rfl⟩
    · obtain ⟨hle, hle', hrest⟩ := h.remove
      obtain ⟨hfails, hrest⟩ := ih hrest hread
      refine ⟨?_, hrest⟩
      rw [hfails, decide_eq_false (not_lt.mpr hle), decide_eq_false (not_lt.mpr hle')]
      rfl
    · cases hread
      obtain ⟨hle, hrest⟩ := h.advance (n := a.bytesRead - b.offset) (by omega)
        (b.offset + (a.bytesRead - b.offset))
      obtain ⟨hfails, hrest, hoffset, hstop⟩ := counted_takeChunk
        (a := { a with buffered := a.buffered - (a.bytesRead - b.offset) }) hrest maxLength
      refine ⟨?_, hrest, fun c hc => ?_, hstop, ?_⟩
      · dsimp only
        rw [hfails, decide_eq_false (not_lt.mpr hle)]
        rfl
      · cases hc
        rw [hoffset]
        exact Nat.add_sub_of_le (le_of_not_gt hgap)
      · unfold takeChunk
        split_ifs <;> rfl

theorem Exact.read (h : Exact a) (hsorted : Sorted a) {maxLength : Nat} {chunk : Option Chunk}
    (hread : a.read maxLength true = (chunk, a')) :
    readFails a maxLength = false ∧ Exact a' ∧ (∀ c ∈ chunk, c.offset = a.bytesRead) ∧
      a'.stop = a.stop := by
  unfold Exact at h
  rcases hnext : a.next with _ | slot
  · rw [hnext] at h
    simp only [Assembler.read, hnext] at hread
    obtain ⟨hfails, hcounted, hoffset, hstop, hnone⟩ := counted_readHeap h hread
    refine ⟨?_, ?_, hoffset, hstop⟩
    · rw [readFails, hnext]
      exact hfails
    · rw [Exact, hnone, hnext]
      exact hcounted
  · rw [hnext] at h
    have hfails := (counted_takeChunk h maxLength).1
    have hoffset := (hsorted.next slot hnext).1
    simp only [Assembler.read, hnext] at hread
    refine ⟨by simp only [readFails, hnext, hfails], ?_⟩
    split_ifs at hread with hlong <;> cases hread <;>
      refine ⟨?_, fun c hc => (by cases hc; exact hoffset), rfl⟩
    · exact (h.advance (le_of_lt hlong) _).2
    · exact h.remove.2.2

section Runs

structure State where
  assembler : Assembler
  inserted : List (Nat × Bytes)
  returned : Bytes

inductive Op
  | insert (offset : Nat) (bytes : Bytes) (allocationSize : Nat)
  | read (maxLength : Nat)
  /-- Defragmentation at any time; `insert` does it where too much is allocated. -/
  | defragment

def step (s : State) : Op → Option State
  | .insert offset bytes allocationSize =>
    some { s with
      assembler := s.assembler.insert offset bytes allocationSize
      inserted := (offset, bytes) :: s.inserted }
  | .read maxLength =>
    let (chunk, assembler) := s.assembler.read maxLength true
    some { s with assembler, returned := s.returned ++ (chunk.map Chunk.bytes).getD [] }
  | .defragment => some { s with assembler := s.assembler.defragment }

def system : System State Op where
  initial s := s = ⟨.new, [], []⟩
  step := step

def Agrees (stream : Bytes) (_ : State) : Op → Prop
  | .insert offset bytes allocationSize =>
    bytes <+: stream.drop offset ∧ bytes.length ≤ allocationSize
  | .read _ | .defragment => True

def fails (a : Assembler) : Op → Bool
  | .insert offset bytes allocationSize => insertFails a offset bytes allocationSize
  | .read maxLength => readFails a maxLength
  | .defragment => false

def State.Inserted (s : State) (n : Nat) : Prop :=
  ∃ x ∈ s.inserted, x.1 ≤ n ∧ n < x.1 + x.2.length

theorem places_iff {stream bytes : Bytes} {offset : Nat} :
    Places (fun n byte => stream[n]? = some byte) offset bytes ↔ bytes <+: stream.drop offset := by
  rw [List.prefix_iff_getElem?]
  constructor
  · intro h i hi
    rw [List.getElem?_drop]
    exact h i _ (List.getElem?_eq_getElem hi)
  · intro h i byte hi
    obtain ⟨hlt, rfl⟩ := List.getElem?_eq_some_iff.mp hi
    rw [← List.getElem?_drop]
    exact h i hlt

structure Inv (stream : Bytes) (s : State) : Prop where
  holds : Holds (fun n byte => stream[n]? = some byte) s.assembler
  sorted : Sorted s.assembler
  exact : Exact s.assembler
  inserted : ∀ n, Has s.assembler n ↔ s.Inserted n
  stop : ∀ n, Has s.assembler n → n < s.assembler.stop
  length : s.returned.length = s.assembler.bytesRead
  returned : s.returned <+: stream

variable {stream : Bytes} {s s' : State} {op : Op}

theorem inv_initial (h : system.initial s) : Inv stream s := by
  subst h
  have hnone : ∀ n, ¬ Has .new n := fun n hn => hn.elim (Nat.not_lt_zero n) (not_covers_nil n)
  refine ⟨holds_new, sorted_new, counted_nil, fun n => iff_of_false (hnone n) ?_,
    fun n hn => absurd hn (hnone n), rfl, List.nil_prefix⟩
  rintro ⟨x, hx, -⟩
  exact List.not_mem_nil hx

theorem Inv.bytesRead_le (h : Inv stream s) : s.assembler.bytesRead ≤ s.assembler.stop := by
  rcases hread : s.assembler.bytesRead with _ | n
  · exact Nat.zero_le _
  · refine h.stop n (.inl ?_)
    rw [hread]
    exact Nat.lt_succ_self n

theorem Inv.chunk (h : Inv stream s) {maxLength : Nat} {chunk : Chunk}
    (hread : s.assembler.read maxLength true = (some chunk, a)) :
    chunk.offset = s.assembler.bytesRead ∧
      a.bytesRead = s.assembler.bytesRead + chunk.bytes.length ∧
      chunk.bytes <+: stream.drop s.assembler.bytesRead := by
  refine ⟨(h.exact.read h.sorted hread).2.2.1 chunk rfl, (read_bytesRead hread).1, ?_⟩
  exact places_iff.mp ((h.holds.read hread).1 chunk rfl)

theorem inv_read (h : Inv stream s) {maxLength : Nat} {chunk : Option Chunk}
    (hread : s.assembler.read maxLength true = (chunk, a)) :
    Inv stream { s with
      assembler := a, returned := s.returned ++ (chunk.map Chunk.bytes).getD [] } := by
  obtain ⟨hsorted, hhas, -⟩ := h.sorted.read hread
  obtain ⟨-, hexact, -, hstop⟩ := h.exact.read h.sorted hread
  refine ⟨(h.holds.read hread).2, hsorted, hexact, fun n => (hhas n).trans (h.inserted n),
    fun n hn => hstop ▸ h.stop n ((hhas n).mp hn), ?_, ?_⟩
  · rw [List.length_append, h.length, (read_bytesRead hread).1]
    rcases chunk with _ | chunk <;> rfl
  · rcases chunk with _ | chunk
    · simpa using h.returned
    · obtain ⟨-, -, hprefix⟩ := h.chunk hread
      rw [← h.length] at hprefix
      obtain ⟨_, hrest⟩ := h.returned
      rw [← hrest, List.drop_left] at hprefix
      rw [← hrest]
      exact (List.prefix_append_right_inj s.returned).mpr hprefix

theorem inv_step (h : Inv stream s) (hop : Agrees stream s op)
    (hstep : system.step s op = some s') : Inv stream s' := by
  cases op with
  | insert offset bytes allocationSize =>
    cases hstep
    obtain ⟨hsorted, hhas⟩ := h.sorted.insert offset bytes allocationSize
    obtain ⟨-, hexact, hstop⟩ := h.exact.insert h.sorted.ordered h.bytesRead_le hop.2
    have hread := (insert_ordered h.sorted.ordered offset bytes allocationSize).2
    refine ⟨h.holds.insert (places_iff.mpr hop.1) allocationSize, hsorted, hexact, fun n => ?_,
      fun n hn => ?_, h.length.trans hread.symm, h.returned⟩
    · rw [hhas, h.inserted, or_comm]
      simp only [State.Inserted, List.exists_mem_cons_iff]
    · rw [hstop]
      rcases (hhas n).mp hn with hn | ⟨-, hlt⟩
      · exact lt_of_lt_of_le (h.stop n hn) (Nat.le_max_left _ _)
      · exact lt_of_lt_of_le hlt (Nat.le_max_right _ _)
  | read =>
    cases hstep
    exact inv_read h rfl
  | defragment =>
    cases hstep
    obtain ⟨hsorted, hhas⟩ := h.sorted.defragment
    have hrest : s.assembler.defragment.stop = s.assembler.stop ∧
        s.assembler.defragment.bytesRead = s.assembler.bytesRead := by
      simp only [defragment, flushNext_eq, and_self]
    exact ⟨h.holds.defragment, hsorted, exact_defragment _,
      fun n => (hhas n).trans (h.inserted n), fun n hn => hrest.1 ▸ h.stop n ((hhas n).mp hn),
      h.length.trans hrest.2.symm, h.returned⟩

theorem Inv.fails (h : Inv stream s) (hop : Agrees stream s op) : fails s.assembler op = false := by
  cases op with
  | insert => exact (h.exact.insert h.sorted.ordered h.bytesRead_le hop.2).1
  | read => exact (h.exact.read h.sorted rfl).1
  | defragment => rfl

/-- The reads return the stream in order and stop only where data is missing; the counters
stay exact, and no subtraction underflows. -/
theorem ordered_reassembly (hs : system.ReachableVia (Agrees stream) s) :
    s.returned = stream.take s.assembler.bytesRead ∧ s.returned.length = s.assembler.bytesRead ∧
      (∀ maxLength chunk a, s.assembler.read maxLength true = (some chunk, a) →
        chunk.offset = s.assembler.bytesRead ∧
          a.bytesRead = s.assembler.bytesRead + chunk.bytes.length ∧
          chunk.bytes <+: stream.drop s.assembler.bytesRead ∧
          (0 < maxLength → chunk.bytes ≠ [])) ∧
      (∀ maxLength a, s.assembler.read maxLength true = (none, a) →
        ¬ s.Inserted s.assembler.bytesRead) ∧
      Exact s.assembler ∧ ∀ op, Agrees stream s op → fails s.assembler op = false := by
  have h : Inv stream s := hs.invariant (fun _ => inv_initial) fun _ _ _ => inv_step
  refine ⟨?_, h.length, fun maxLength chunk a hread => ?_, fun maxLength a hread => ?_, h.exact,
    fun op => h.fails⟩
  · rw [← h.length]
    exact List.prefix_iff_eq_take.mp h.returned
  · obtain ⟨hoffset, hnext, hbytes⟩ := h.chunk hread
    exact ⟨hoffset, hnext, hbytes, (h.sorted.read hread).2.2.2 chunk rfl⟩
  · obtain ⟨-, hhas, hmissing, -⟩ := h.sorted.read hread
    have hsame : a.bytesRead = s.assembler.bytesRead := (read_bytesRead hread).1
    have hmissing := hmissing rfl
    rwa [hhas, hsame, h.inserted] at hmissing

/-- Two pieces that overlap, the later one first. -/
theorem ordered_reassembly_overlap :
    ∃ s, system.ReachableVia (Agrees [1, 2, 3, 4]) s ∧ s.assembler.bytesRead = 3 ∧
      s.returned = [1, 2, 3, 4].take s.assembler.bytesRead ∧ Exact s.assembler := by
  obtain ⟨s, hs, hread⟩ : ∃ s, system.ReachableVia (Agrees [1, 2, 3, 4]) s ∧
      s.assembler.bytesRead = 3 :=
    ⟨_, .step (a := .read 3) (.step (a := .insert 0 [1, 2, 3] 8)
      (.step (a := .insert 2 [3, 4] 2) (.initial rfl) ⟨⟨[], rfl⟩, by decide⟩ rfl)
      ⟨⟨[4], rfl⟩, by decide⟩ rfl) trivial rfl, rfl⟩
  obtain ⟨hreturned, -, -, -, hexact, -⟩ := ordered_reassembly hs
  exact ⟨s, hs, hread, hreturned, hexact⟩

end Runs

end Quac.OrderedAssembly
