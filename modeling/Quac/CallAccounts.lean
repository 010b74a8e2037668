import Quac.StreamAccounts

/-!
What the calls of a connection's user do to the accounts of its streams.
-/

namespace Quac.CallAccounts

open Function Identifiers Reassembly RecvHalf SendHalf StreamAccess StreamAccounts
open Streams StreamsState

variable {pending pending' : Retransmits} {c : Chunks}

variable {s s' : StreamsState} {id : StreamId}

def readBytes : List (Except ReadError (Option Chunk)) → Bytes
  | [] => []
  | .ok (some chunk) :: rest => chunk.bytes ++ readBytes rest
  | _ :: rest => readBytes rest

def readsEnd (results : List (Except ReadError (Option Chunk))) : Bool :=
  results.any fun
    | .ok none => true
    | _ => false

inductive Reads : Assembler → Bytes → Assembler → Prop
  | done (a : Assembler) : Reads a [] a
  | chunk {a a' a'' : Assembler} {bytes : Bytes} (maxLength : Nat) (chunk : Chunk)
      (h : a.read maxLength true = (some chunk, a')) (hrest : Reads a' bytes a'') :
      Reads a (chunk.bytes ++ bytes) a''
  | nothing {a a' a'' : Assembler} {bytes : Bytes} (maxLength : Nat)
      (h : a.read maxLength true = (none, a')) (hrest : Reads a' bytes a'') : Reads a bytes a''

theorem Reads.bytesRead {a a' : Assembler} {bytes : Bytes} (h : Reads a bytes a') :
    a'.bytesRead = a.bytesRead + bytes.length ∧ a'.state = a.state := by
  induction h with
  | done => exact ⟨rfl, rfl⟩
  | chunk _ _ h _ ih =>
    obtain ⟨hread, hstate⟩ := Assembler.read_bytesRead h
    refine ⟨?_, ih.2.trans hstate⟩
    rw [ih.1, hread, List.length_append]
    exact add_assoc _ _ _
  | nothing _ h _ ih =>
    obtain ⟨hread, hstate⟩ := Assembler.read_bytesRead h
    exact ⟨by rw [ih.1, hread]; rfl, ih.2.trans hstate⟩

theorem Reads.of_empty {a a' : Assembler} {bytes : Bytes} (h : Reads a bytes a')
    (hnext : a.next = none) (hdata : a.data = []) :
    bytes = [] ∧ a'.next = none ∧ a'.data = [] := by
  induction h with
  | done => exact ⟨rfl, hnext, hdata⟩
  | chunk _ _ h =>
    simp only [Assembler.read, hnext, hdata, Assembler.readHeap] at h
    cases h
  | nothing _ h _ ih =>
    simp only [Assembler.read, hnext, hdata, Assembler.readHeap] at h
    cases h
    exact ih rfl rfl

inductive Next (c : Chunks) (recv : Recv) (maxLength : Nat) (assembler : Assembler) :
    Except ReadError (Option Chunk) → Chunks → Prop
  | chunk (chunk : Chunk) (hread : recv.assembler.read maxLength true = (some chunk, assembler)) :
      Next c recv maxLength assembler (.ok (some chunk)) { c with
        read := c.read + chunk.bytes.length
        state := .readable { recv with assembler } }
  | blocked (hread : recv.assembler.read maxLength true = (none, assembler)) :
      Next c recv maxLength assembler (.error .blocked)
        { c with state := .readable { recv with assembler } }
  | reset (hread : recv.assembler.read maxLength true = (none, assembler)) (errorCode : Nat)
      (hreset : recv.isReceiving = false) :
      Next c recv maxLength assembler (.error (.reset errorCode)) { c with
        state := .reset errorCode
        streams := c.streams.streamRecvFreed c.id (.opened { recv with assembler }) }
  | finished (hread : recv.assembler.read maxLength true = (none, assembler))
      (hsize : recv.state = .recv (some recv.stop)) (hend : assembler.bytesRead = recv.stop) :
      Next c recv maxLength assembler (.ok none) { c with
        state := .finished
        streams := c.streams.streamRecvFreed c.id (.opened { recv with assembler }) }

theorem next_cases {recv : Recv} (hordered : c.ordered = true)
    (hstate : c.state = .readable recv) (maxLength : Nat) :
    ∃ assembler, Next c recv maxLength assembler (c.next maxLength).1 (c.next maxLength).2 := by
  obtain ⟨_, ordered, _, state, read⟩ := c
  obtain rfl : ordered = true := hordered
  obtain rfl : state = .readable recv := hstate
  simp only [Chunks.next]
  rcases hread : recv.assembler.read maxLength true with ⟨_ | chunk, assembler⟩
  · refine ⟨assembler, ?_⟩
    rcases hrecv : recv.state with size | ⟨_, errorCode⟩
    · dsimp only
      rw [← hrecv]
      split_ifs with hend
      · exact .finished hread (hend.1 ▸ hrecv) hend.2
      · exact .blocked hread
    · exact .reset hread errorCode (by simp [Recv.isReceiving, hrecv])
  · exact ⟨assembler, .chunk chunk hread⟩

theorem nextEach_ended (hended : ∀ recv, c.state ≠ .readable recv) (maxLengths : List Nat) :
    (c.nextEach maxLengths).2 = c ∧ readBytes (c.nextEach maxLengths).1 = [] ∧
      (readsEnd (c.nextEach maxLengths).1 = true → c.state = .finished) := by
  induction maxLengths with
  | nil => exact ⟨rfl, rfl, Bool.noConfusion⟩
  | cons maxLength _ ih =>
    rcases hstate : c.state with recv | errorCode | _
    · exact absurd hstate (hended recv)
    · have hnext : c.next maxLength = (.error (.reset errorCode), c) := by
        simp only [Chunks.next, hstate]
      simp only [Chunks.nextEach, hnext, readBytes]
      refine ⟨ih.1, ih.2.1, fun h => ?_⟩
      have := ih.2.2 (by simpa [readsEnd] using h)
      cases hstate.symm.trans this
    · have hnext : c.next maxLength = (.ok none, c) := by
        simp only [Chunks.next, hstate]
      simp only [Chunks.nextEach, hnext, readBytes]
      exact ⟨ih.1, ih.2.1, fun _ => trivial⟩

/-- What a series of ordered reads does: the half is left with what was not read, or
it was reset or read to its end and the stream is freed. -/
theorem nextEach_readable {c' : Chunks} {recv : Recv} {maxLengths : List Nat}
    {results : List (Except ReadError (Option Chunk))} (hordered : c.ordered = true)
    (hstate : c.state = .readable recv) (h : c.nextEach maxLengths = (results, c')) :
    c'.id = c.id ∧ c'.read = c.read + (readBytes results).length ∧
    ∃ assembler, Reads recv.assembler (readBytes results) assembler ∧
      (c'.state = .readable { recv with assembler } ∧ c'.streams = c.streams ∧
          readsEnd results = false ∨
        (∀ r, c'.state ≠ .readable r) ∧
          c'.streams = c.streams.streamRecvFreed c.id (.opened { recv with assembler }) ∧
          (recv.isReceiving = false ∧ readsEnd results = false ∨
            recv.state = .recv (some recv.stop) ∧ assembler.bytesRead = recv.stop)) := by
  induction maxLengths generalizing c recv results with
  | nil =>
    cases h
    exact ⟨rfl, rfl, recv.assembler, .done _, .inl ⟨hstate, rfl, rfl⟩⟩
  | cons maxLength rest ih =>
    obtain ⟨assembler, hnext⟩ := next_cases hordered hstate maxLength
    simp only [Chunks.nextEach] at h
    generalize c.next maxLength = r at hnext h
    obtain ⟨result, c₁⟩ := r
    obtain ⟨results₁, hrest⟩ : ∃ results₁, c₁.nextEach rest = (results₁, c') :=
      ⟨_, Prod.ext rfl (Prod.mk.inj h).2⟩
    obtain rfl : result :: results₁ = results := by simpa [hrest] using (Prod.mk.inj h).1
    have hended := fun h => nextEach_ended (c := c₁) h rest
    rw [hrest] at hended
    cases hnext with
    | chunk chunk hread =>
      obtain ⟨hid, hcount, asm, hreads, hafter⟩ := ih (c := { c with
        read := c.read + chunk.bytes.length
        state := .readable { recv with assembler } }) hordered rfl hrest
      refine ⟨hid, ?_, asm, .chunk maxLength chunk hread hreads, hafter⟩
      rw [hcount, readBytes, List.length_append]
      exact add_assoc _ _ _
    | blocked hread =>
      obtain ⟨hid, hcount, asm, hreads, hafter⟩ := ih (c := { c with
        state := .readable { recv with assembler } }) hordered rfl hrest
      exact ⟨hid, hcount, asm, .nothing maxLength hread hreads, hafter⟩
    | reset hread errorCode hreset =>
      obtain ⟨rfl, hbytes, hends⟩ := hended (by simp)
      simp only [readBytes, show readBytes results₁ = [] from hbytes]
      refine ⟨trivial, rfl, assembler, .nothing maxLength hread (.done _),
        .inr ⟨by simp, rfl, .inl ⟨hreset, ?_⟩⟩⟩
      rw [← Bool.not_eq_true]
      intro hend
      cases hends (by simpa [readsEnd] using hend)
    | finished hread hsize hend =>
      obtain ⟨rfl, hbytes, -⟩ := hended (by simp)
      simp only [readBytes, show readBytes results₁ = [] from hbytes]
      exact ⟨trivial, rfl, assembler, .nothing maxLength hread (.done _),
        .inr ⟨by simp, rfl, .inr ⟨hsize, hend⟩⟩⟩

def Requeued (pending pending' : Retransmits) (id : StreamId) : Prop :=
  ∃ maxData maxStreamId maxStreamData,
    pending' = { pending with maxData, maxStreamId, maxStreamData } ∧
    ∀ j ∈ maxStreamData, j ∈ pending.maxStreamData ∨ j = id

theorem finalize_cases (h : c.finalize pending = (s', pending')) :
    (Fresh c.streams → Fresh s') ∧ Requeued pending pending' c.id ∧
      ((∃ recv, c.state = .readable recv ∧
          accounts s' = ((accounts c.streams).setRecv c.id recv).credit c.read) ∨
        (∀ recv, c.state ≠ .readable recv) ∧ accounts s' = (accounts c.streams).credit c.read) := by
  unfold Chunks.finalize at h
  rcases hstate : c.state with recv | _ | _
  · simp only [hstate] at h
    obtain ⟨rfl, rfl⟩ := Prod.mk.inj h
    refine ⟨fun hfresh => fresh_addReadCredits (s := c.streams.setRecv c.id recv) hfresh _, ?_,
      .inl ⟨recv, rfl, ?_⟩⟩
    · split_ifs
      · refine ⟨_, _, _, rfl, fun j hj => ?_⟩
        exact (List.mem_insert_iff.mp hj).symm
      · exact ⟨_, _, _, rfl, fun j hj => .inl hj⟩
    · rw [accounts_addReadCredits, accounts_setRecv]
  all_goals
    simp only [hstate] at h
    obtain ⟨rfl, rfl⟩ := Prod.mk.inj h
    refine ⟨fun hfresh => fresh_addReadCredits hfresh _, ⟨_, _, _, rfl, fun j hj => .inl hj⟩,
      .inr ⟨fun _ h => (by cases h), ?_⟩⟩
    exact accounts_addReadCredits _

theorem accounts_poll (hfresh : Fresh s) : Fresh s.poll.2 ∧ accounts s.poll.2 = accounts s := by
  have hkept : ∀ send : StreamId → Option (Option Send),
      (∀ id, (getSend { s with send } id).map lower = (s.getSend id).map lower) →
        accounts { s with send } = accounts s := by
    intro send hsend
    have haccounts : ∀ id, (accounts { s with send }).send id = (accounts s).send id := by
      intro id
      have heq := congrArg (Option.map Outgoing.ofSend) (hsend id)
      rw [Option.map_map, Option.map_map] at heq
      exact heq
    simp only [accounts] at haccounts ⊢
    rw [funext haccounts]
    rfl
  have hpoll : Polls s s.poll.1 s.poll.2 := poll_spec rfl
  generalize s.poll.1 = event, s.poll.2 = s' at hpoll ⊢
  cases hpoll with
  | opened => exact ⟨hfresh, rfl⟩
  | writable hsend | event _ hsend => exact ⟨hfresh, hkept _ hsend⟩

def resized (a : Accounts) (receiveWindow : Nat) : Accounts :=
  if a.receiveWindow < receiveWindow then
    { a with
      localMaxData := (a.localMaxData + (receiveWindow - a.receiveWindow)).min (2 ^ 64 - 1)
      receiveWindow }
  else
    { a with
      receiveWindowShrinkDebt :=
        (a.receiveWindowShrinkDebt + (a.receiveWindow - receiveWindow)).min (2 ^ 64 - 1)
      receiveWindow }

theorem accounts_setReceiveWindow (hfresh : Fresh s) (receiveWindow : Nat) :
    Fresh (s.setReceiveWindow receiveWindow).2 ∧
      accounts (s.setReceiveWindow receiveWindow).2 = resized (accounts s) receiveWindow := by
  have hwindow : (accounts s).receiveWindow = s.receiveWindow := rfl
  unfold StreamsState.setReceiveWindow resized
  rw [hwindow]
  split_ifs <;> exact ⟨hfresh, rfl⟩

theorem accounts_setMaxConcurrent (hfresh : Fresh s) (dir : Dir) (count : Nat) :
    Fresh (s.setMaxConcurrent dir count) ∧
      ∃ n, accounts (s.setMaxConcurrent dir count) = (accounts s).allot
        (update s.maxRemote dir (s.maxRemote dir + n))
        (update s.allocatedRemoteCount dir (s.allocatedRemoteCount dir + n)) :=
  accounts_ensureRemoteStreams (s := { s with
    flowControlAdjusted := true
    maxConcurrentRemoteCount := update s.maxConcurrentRemoteCount dir count }) hfresh dir

end Quac.CallAccounts
