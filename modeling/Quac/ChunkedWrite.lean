import Quac.SendHalf

/-!
Writing an array of chunks to a stream: `Send::write` over `BytesArray`.
-/

namespace Quac.ChunkedWrite

open Identifiers SendData SendHalf List

/-- `BytesArray`, cut at `consumed`. -/
structure BytesArray where
  consumed : List Bytes
  rest : List Bytes

namespace BytesArray

def fromChunks (chunks : List Bytes) : BytesArray :=
  ⟨[], chunks⟩

def chunks (a : BytesArray) : List Bytes :=
  a.consumed ++ a.rest

/-- The loop of `pop_chunk`, which skips empty chunks and marks them as consumed. -/
def popLoop (limit : Nat) (consumed : List Bytes) : List Bytes → Bytes × Nat × BytesArray
  | [] => ([], 0, ⟨consumed, []⟩)
  | chunk :: rest =>
    if chunk.length ≤ limit then
      -- `mem::take` leaves an empty chunk behind.
      if chunk.isEmpty then
        let (popped, chunksConsumed, a) := popLoop limit (consumed ++ [[]]) rest
        (popped, chunksConsumed + 1, a)
      else (chunk, 1, ⟨consumed ++ [[]], rest⟩)
    else if 0 < limit then (chunk.take limit, 0, ⟨consumed, chunk.drop limit :: rest⟩)
    else ([], 0, ⟨consumed, chunk :: rest⟩)

def popChunk (a : BytesArray) (limit : Nat) : Bytes × Nat × BytesArray :=
  popLoop limit a.consumed a.rest

end BytesArray

/-- `Send::write` over an array; over a slice it is `Send.write`.  The result is `none` if
the loop does not end. -/
def write (s : Send) (source : BytesArray) (limit : Nat) :
    Option (Except WriteError (Written × Send × BytesArray)) :=
  if !s.isWritable then some (.error .closedStream)
  else
    match s.stopReason with
    | some errorCode => some (.error (.stopped errorCode))
    | none =>
      let budget := s.maxData - s.offset
      if budget = 0 then some (.error .blocked)
      else
        let limit := limit.min budget
        let (written, pending, source) :=
          Send.writeChunks BytesArray.popChunk (limit + 1) source limit ⟨0, 0⟩ s.pending
        source.map fun source => .ok (written, { s with pending }, source)

/-- How many chunks fit into the limit, and what is left of the others. -/
def cut : List Bytes → Nat → Nat × List Bytes
  | [], _ => (0, [])
  | chunk :: rest, limit =>
    if chunk.length ≤ limit then
      ((cut rest (limit - chunk.length)).1 + 1, (cut rest (limit - chunk.length)).2)
    else (0, chunk.drop limit :: rest)

section Cut

variable (chunks : List Bytes) (limit : Nat)

theorem flatten_cut : (cut chunks limit).2.flatten = chunks.flatten.drop limit := by
  induction chunks generalizing limit with
  | nil => simp [cut]
  | cons chunk rest ih =>
    rw [cut, flatten_cons, drop_append]
    split_ifs with h
    · simp [ih, drop_of_length_le h]
    · simp [Nat.sub_eq_zero_of_le (Nat.le_of_not_le h)]

theorem cut_fits : (cut chunks limit).1 ≤ chunks.length ∧
    (chunks.take (cut chunks limit).1).flatten.length ≤ min chunks.flatten.length limit := by
  induction chunks generalizing limit with
  | nil => simp [cut]
  | cons chunk rest ih =>
    rw [cut]
    split_ifs with h
    · have := ih (limit - chunk.length)
      simp only [length_cons, take_succ_cons, flatten_cons, length_append]
      omega
    · simp

theorem le_cut {k : Nat} (hk : k ≤ chunks.length) (h : (chunks.take k).flatten.length ≤ limit) :
    k ≤ (cut chunks limit).1 := by
  induction chunks generalizing limit k with
  | nil => exact hk
  | cons chunk rest ih =>
    rcases k with _ | k
    · exact Nat.zero_le _
    simp only [length_cons, take_succ_cons, flatten_cons, length_append] at hk h
    rw [cut, if_pos (by omega)]
    exact Nat.succ_le_succ (ih _ (Nat.le_of_succ_le_succ hk) (by omega))

theorem cut_snd : (cut chunks limit).2 = (chunks.drop (cut chunks limit).1).modifyHead
    (·.drop (min chunks.flatten.length limit -
      (chunks.take (cut chunks limit).1).flatten.length)) := by
  induction chunks generalizing limit with
  | nil => rfl
  | cons chunk rest ih =>
    rw [cut]
    split_ifs with h
    · simp only [drop_succ_cons, take_succ_cons, flatten_cons, length_append]
      rw [ih]
      congr 2
      funext data
      congr 1
      omega
    · have hmin : min (chunk :: rest).flatten.length limit = limit := by
        rw [flatten_cons, length_append]
        omega
      rw [hmin]
      rfl

end Cut

/-- What one call of `pop_chunk` does. -/
structure Popped (limit : Nat) (a : BytesArray) (chunk : Bytes) (chunksConsumed : Nat)
    (a' : BytesArray) : Prop where
  le : chunk.length ≤ limit
  consumed : a'.consumed = a.consumed ++ List.replicate chunksConsumed []
  bytes : a.rest.flatten.take limit = chunk ++ a'.rest.flatten.take (limit - chunk.length)
  chunks : cut a.rest limit = ((cut a'.rest (limit - chunk.length)).1 + chunksConsumed,
    (cut a'.rest (limit - chunk.length)).2)
  /-- It pops nothing only at the end of the array or of the limit. -/
  stops : chunk = [] → a'.rest.flatten.take limit = [] ∧ cut a'.rest limit = (0, a'.rest)

theorem popLoop_popped (limit : Nat) (consumed rest : List Bytes) :
    Popped limit ⟨consumed, rest⟩ (BytesArray.popLoop limit consumed rest).1
      (BytesArray.popLoop limit consumed rest).2.1
        (BytesArray.popLoop limit consumed rest).2.2 := by
  induction rest generalizing consumed with
  | nil => constructor <;> simp [BytesArray.popLoop, cut]
  | cons chunk rest ih =>
    rw [BytesArray.popLoop]
    split_ifs with hle hempty hlimit
    · obtain ⟨hlen, hconsumed, hbytes, hchunks, hstops⟩ := ih (consumed ++ [[]])
      obtain rfl := isEmpty_iff.mp hempty
      refine ⟨hlen, ?_, hbytes, ?_, hstops⟩
      · rw [hconsumed, append_assoc]
        rfl
      · rw [cut, if_pos hle, length_nil, Nat.sub_zero, hchunks]
        rfl
    · refine ⟨hle, rfl, ?_, by rw [cut, if_pos hle], fun hnil => ?_⟩
      · simp [take_append, take_of_length_le hle]
      · exact absurd (isEmpty_iff.mpr hnil) hempty
    · have hlen := length_take_of_le (Nat.le_of_not_le hle)
      refine ⟨Nat.le_of_eq hlen, (append_nil _).symm, ?_, ?_, fun hnil => ?_⟩
      · simp [take_append, Nat.sub_eq_zero_of_le (Nat.le_of_not_le hle), hlen]
      · simp only [cut, if_neg hle, hlen, Nat.sub_self, Nat.le_zero, length_drop]
        rw [if_neg (by omega), drop_zero]
      · rw [show chunk.take limit = [] from hnil] at hlen
        exact absurd hlen (Nat.ne_of_lt hlimit)
    · obtain rfl : limit = 0 := by omega
      exact ⟨le_rfl, (append_nil _).symm, rfl, rfl,
        fun _ => ⟨rfl, by rw [cut, if_neg hle, drop_zero]⟩⟩

/-- The data is appended to the buffer, and nothing else changes. -/
structure Appended (b : SendBuffer) (data : Bytes) (b' : SendBuffer) : Prop where
  segments : b'.unackedSegments.flatten = b.unackedSegments.flatten ++ data
  frame : { b' with unackedSegments := b.unackedSegments } =
    { b with unackedLen := b.unackedLen + data.length, offset := b.offset + data.length }

theorem appended_nil (b : SendBuffer) : Appended b [] b :=
  ⟨(append_nil _).symm, rfl⟩

theorem Appended.write {b b' : SendBuffer} {chunk data : Bytes}
    (h : Appended (b.write chunk) data b') : Appended b (chunk ++ data) b' := by
  obtain ⟨hsegments, hframe⟩ := h
  refine ⟨by simp [hsegments, SendBuffer.write], ?_⟩
  simp only [SendBuffer.write, SendBuffer.mk.injEq] at hframe ⊢
  simp [hframe, Nat.add_assoc]

theorem writeChunks_popChunk {fuel limit : Nat} (hfuel : limit < fuel) (a : BytesArray)
    (written : Written) (pending : SendBuffer) : ∃ pending',
      Send.writeChunks BytesArray.popChunk fuel a limit written pending =
        (⟨written.bytes + (a.rest.flatten.take limit).length,
            written.chunks + (cut a.rest limit).1⟩, pending',
          some ⟨a.consumed ++ replicate (cut a.rest limit).1 [], (cut a.rest limit).2⟩) ∧
      Appended pending (a.rest.flatten.take limit) pending' := by
  induction fuel generalizing limit a written pending with
  | zero => exact absurd hfuel (Nat.not_lt_zero _)
  | succ fuel ih =>
    rcases hpop : a.popChunk limit with ⟨chunk, chunksConsumed, a'⟩
    obtain ⟨hle, hconsumed, hbytes, hchunks, hstops⟩ : Popped limit a chunk chunksConsumed a' := by
      have hpopped := popLoop_popped limit a.consumed a.rest
      rwa [show BytesArray.popLoop limit a.consumed a.rest = _ from hpop] at hpopped
    rw [Send.writeChunks, hpop]
    dsimp only
    split_ifs with hempty
    · obtain rfl := isEmpty_iff.mp hempty
      obtain ⟨hnil, hcut⟩ := hstops rfl
      rw [length_nil, Nat.sub_zero] at hbytes hchunks
      rw [hbytes, hchunks, hnil, hcut, Nat.zero_add, ← hconsumed]
      exact ⟨pending, rfl, appended_nil pending⟩
    · have hpos := length_pos_iff.mpr (isEmpty_eq_false_iff.mp (eq_false_of_ne_true hempty))
      obtain ⟨pending', hloop, happended⟩ := ih (by omega : limit - chunk.length < fuel) a'
        ⟨written.bytes + chunk.length, written.chunks + chunksConsumed⟩ (pending.write chunk)
      rw [hloop, hbytes, hchunks, hconsumed]
      refine ⟨pending', ?_, happended.write⟩
      simp only [length_append, append_assoc, replicate_append_replicate,
        Nat.add_assoc, Nat.add_comm chunksConsumed]

section Write

variable {s : Send} (hready : s.state = .ready) (hstop : s.stopReason = none)
  (chunks : List Bytes) (limit : Nat)

include hready hstop

theorem slice_written (hbudget : s.offset < s.maxData) (data : Bytes) : ∃ consumed pending,
    s.write data limit = .ok (⟨(data.take (limit.min (s.maxData - s.offset))).length, consumed⟩,
      { s with pending }) ∧
    Appended s.pending (data.take (limit.min (s.maxData - s.offset))) pending := by
  obtain ⟨consumed, _, hchunks⟩ :=
    Send.writeChunks_popSlice data (limit.min (s.maxData - s.offset)) s.pending
  refine ⟨consumed, if (limit.min (s.maxData - s.offset)).min data.length = 0 then s.pending
    else s.pending.write (data.take (limit.min (s.maxData - s.offset))), ?_, ?_⟩
  · simp only [Send.write, Send.isWritable, hready, hstop, Nat.sub_ne_zero_of_lt hbudget, hchunks,
      length_take]
    rfl
  split_ifs with h
  · rw [eq_nil_of_length_eq_zero (length_take.trans h)]
    exact appended_nil _
  · simpa using (appended_nil (s.pending.write _)).write

/-- A write takes the prefix of the chunks that the two limits admit, and leaves the rest;
without budget for the stream it reports an error. -/
theorem chunks_written_prefix :
    let count := min chunks.flatten.length (min limit (s.maxData - s.offset))
    (s.offset < s.maxData → ∃ consumed pending array,
      write s (.fromChunks chunks) limit =
        some (.ok (⟨count, consumed⟩, { s with pending }, array)) ∧
      Appended s.pending (chunks.flatten.take count) pending ∧
      consumed ≤ chunks.length ∧ (chunks.take consumed).flatten.length ≤ count ∧
      (∀ k ≤ chunks.length, (chunks.take k).flatten.length ≤ count → k ≤ consumed) ∧
      array.chunks = replicate consumed [] ++ (chunks.drop consumed).modifyHead
        (·.drop (count - (chunks.take consumed).flatten.length)) ∧
      array.chunks.flatten = chunks.flatten.drop count ∧
      ∃ consumed' pending', s.write chunks.flatten limit =
          .ok (⟨count, consumed'⟩, { s with pending := pending' }) ∧
        Appended s.pending (chunks.flatten.take count) pending') ∧
    (s.maxData ≤ s.offset → write s (.fromChunks chunks) limit = some (.error .blocked)) := by
  intro count
  refine ⟨fun hbudget => ?_, fun hbudget => ?_⟩
  · obtain ⟨allowed, hallowed⟩ : ∃ allowed, allowed = limit.min (s.maxData - s.offset) := ⟨_, rfl⟩
    have hcount : count = min chunks.flatten.length allowed := by rw [hallowed]
    have htake : chunks.flatten.take allowed = chunks.flatten.take count :=
      take_eq_take_iff.mpr (by omega)
    obtain ⟨pending, hloop, happended⟩ :=
      writeChunks_popChunk (Nat.lt_succ_self allowed) (.fromChunks chunks) ⟨0, 0⟩ s.pending
    obtain ⟨consumed', pending', hslice, happended'⟩ :=
      slice_written hready hstop limit hbudget chunks.flatten
    obtain ⟨hconsumed, hfits⟩ := cut_fits chunks allowed
    rw [← hallowed, htake] at hslice happended'
    have hlength : (chunks.flatten.take count).length = count := length_take_of_le (by omega)
    refine ⟨(cut chunks allowed).1, pending,
      ⟨replicate (cut chunks allowed).1 [], (cut chunks allowed).2⟩, ?_, htake ▸ happended,
      hconsumed, hcount ▸ hfits, fun k hk hle => le_cut chunks allowed hk (by omega), ?_, ?_,
      consumed', pending', ?_, happended'⟩
    · rw [show (BytesArray.fromChunks chunks).rest = chunks from rfl, htake, hlength] at hloop
      simp only [write, Send.isWritable, hready, hstop, Nat.sub_ne_zero_of_lt hbudget, ← hallowed]
      rw [hloop]
      simp [BytesArray.fromChunks]
    · rw [BytesArray.chunks, cut_snd, hcount]
    · rw [BytesArray.chunks, flatten_append, flatten_replicate_nil, nil_append, flatten_cut]
      exact drop_eq_drop_iff.mpr (by omega)
    · rwa [hlength] at hslice
  · simp [write, Send.isWritable, hready, hstop, Nat.sub_eq_zero_of_le hbudget]

end Write

theorem emptyChunk_written : ∃ consumed pending array,
    write (.new 10) (.fromChunks [[1, 2], [], [3, 4, 5]]) 4 =
      some (.ok (⟨4, consumed⟩, { Send.new 10 with pending }, array)) ∧
    Appended .new [1, 2, 3, 4] pending := by
  have h := chunks_written_prefix (s := .new 10) rfl rfl [[1, 2], [], [3, 4, 5]] 4
  obtain ⟨consumed, pending, array, hwrite, happended, -⟩ := h.1 (by decide)
  exact ⟨consumed, pending, array, hwrite, happended⟩

/-- A stream without budget reports neither bytes nor chunks, even for an empty array. -/
theorem write_blocked : write (.new 0) (.fromChunks [[]]) 1 =
    some (.error .blocked) :=
  rfl

end Quac.ChunkedWrite
