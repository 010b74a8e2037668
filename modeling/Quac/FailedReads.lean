import Quac.StreamSession

/-!
A read that fails must not change the streams.  `Chunks::new` takes the half of the stream
out of the map before it looks at the order of the reads, and where it then fails the half
is lost.
-/

namespace Quac.FailedReads

open EarlyData Identifiers RecvHalf StreamAccess
open StreamParty hiding State step system
open StreamSession Streams StreamsState

variable {s s' : StreamsState} {id : StreamId} {ordered : Bool} {e : ReadableError}

/-- Nothing that is done to the streams later can tell them apart. -/
structure Unaffected (s s' : StreamsState) (id : StreamId) : Prop where
  rest : { s' with recv := s.recv } = s
  halves : ∀ j, s'.getRecv j = s.getRecv j
  /-- Later reads deliver the same and give the same credit. -/
  reads : ∀ pending ordered maxLengths,
    readEither s' pending id ordered maxLengths = readEither s pending id ordered maxLengths
  rejection : s'.zeroRttRejected = none ↔ s.zeroRttRejected = none

def Reordered (s : StreamsState) (id : StreamId) (ordered : Bool) : Prop :=
  ordered = true ∧ ∃ recv, s.getRecv id = some recv ∧ recv.stopped = false ∧
    recv.assembler.isOrdered = false

theorem getRecv_eq_none_iff : s.getRecv id = none ↔ s.recv id = none := by
  simp [getRecv]

theorem zeroRttRejected_eq_none_iff :
    s.zeroRttRejected = none ↔ ¬ ∀ id, Own s id → Present s id := by
  rw [Option.eq_none_iff_forall_ne_some]
  constructor
  · intro hnone hall
    exact hnone _ (zeroRttRejected_eq_some_iff.mpr ⟨hall, rfl⟩)
  · intro hnot t ht
    exact hnot (zeroRttRejected_eq_some_iff.mp ht).1

theorem Unaffected.refl (s : StreamsState) (id : StreamId) : Unaffected s s id :=
  ⟨rfl, fun _ => rfl, fun _ _ _ => rfl, Iff.rfl⟩

theorem unaffected_setRecv {recv : Recv} (h : s.getRecv id = some recv) :
    Unaffected s (s.setRecv id recv) id := by
  have hhalves : ∀ j, (s.setRecv id recv).getRecv j = s.getRecv j := by
    intro j
    rcases eq_or_ne j id with rfl | hne
    · rw [h]
      simp [getRecv, setRecv, getOrInsertRecv]
    · simp [getRecv, setRecv, hne]
  refine ⟨rfl, hhalves, fun pending ordered maxLengths => ?_, ?_⟩
  · have hset : (s.setRecv id recv).setRecv id recv = s.setRecv id recv := by
      simp [setRecv]
    have hremove : (s.setRecv id recv).removeRecv id = s.removeRecv id := by
      simp [setRecv, removeRecv]
    simp only [readEither, Chunks.new, hhalves, h, hset, hremove]
  · have hpresent : ∀ j, Present (s.setRecv id recv) j ↔ Present s j := by
      intro j
      have hnone : (s.setRecv id recv).recv j = none ↔ s.recv j = none := by
        rw [← getRecv_eq_none_iff, ← getRecv_eq_none_iff, hhalves]
      simp only [Present, ne_eq, hnone]
      exact Iff.rfl
    simp only [zeroRttRejected_eq_none_iff, hpresent]
    exact Iff.rfl

theorem not_unaffected_removeRecv {recv : Recv} (h : s.getRecv id = some recv) :
    ¬ Unaffected s (s.removeRecv id) id := by
  intro hsame
  have hnone : (s.removeRecv id).getRecv id = none := by
    simp [getRecv, removeRecv]
  rw [hsame.halves, h] at hnone
  cases hnone

/-- A read that fails leaves the streams as they were, unless it is an ordered read of a
stream that was read out of order. -/
theorem unaffected_iff_not_reordered (h : Chunks.new id ordered s = .error (e, s')) :
    Unaffected s s' id ↔ ¬ Reordered s id ordered := by
  unfold Chunks.new at h
  rcases hget : s.getRecv id with _ | recv
  · simp only [hget] at h
    cases h
    refine iff_of_true (.refl s id) ?_
    rintro ⟨-, recv, hrecv, -⟩
    cases hget.symm.trans hrecv
  simp only [hget] at h
  split_ifs at h with hstopped
  · cases h
    refine iff_of_true (unaffected_setRecv hget) ?_
    rintro ⟨-, recv', hrecv, hnot, -⟩
    cases hget.symm.trans hrecv
    rw [hstopped] at hnot
    cases hnot
  · split at h
    · rename_i hensure
      cases h
      refine iff_of_false (not_unaffected_removeRecv hget) (not_not.mpr ?_)
      unfold Reassembly.Assembler.ensureOrdering at hensure
      split_ifs at hensure with horder
      rw [Bool.and_eq_true, Bool.not_eq_true'] at horder
      exact ⟨horder.1, recv, hget, by simpa using hstopped, horder.2⟩
    · cases h

def client : Party :=
  ⟨((StreamsState.new .client 1 0 100 100 100).setParams ⟨100, 100, 100, 1, 1, 100⟩), .empty⟩

def ours : StreamId :=
  ⟨.client, .bi, 0⟩

def theirs : StreamId :=
  ⟨.server, .uni, 0⟩

/-- A stream that was stopped is not read any more. -/
theorem stoppedRead_unaffected :
    ∃ p s', system.run client [.call (.openStream .bi), .call (.stop ours 0)] = some p ∧
      Chunks.new ours true p.streams = .error (.closedStream, s') ∧
      Unaffected p.streams s' ours := by
  refine ⟨_, _, rfl, rfl,
    (unaffected_iff_not_reordered (show Chunks.new ours true _ = _ from rfl)).mpr ?_⟩
  rintro ⟨-, recv, hrecv, hnot, -⟩
  obtain rfl := Option.some.inj hrecv
  cases hnot

/-- An ordered read after one out of order fails and the stream is gone: what is left of its
data is not delivered, its credit is not returned, and a rejection of early data panics. -/
theorem orderedRead_loses : (∃ p s', system.run client [.call (.openStream .bi),
        .receive 10 (.stream ⟨ours, 0, false, [1, 2, 3]⟩), .readUnordered ours [1]] = some p ∧
      Chunks.new ours true p.streams = .error (.illegalOrderedRead, s') ∧
      (readEither p.streams p.pending ours false [9]).1 = .ok [.ok (some ⟨1, [2, 3]⟩)] ∧
      (readEither s' p.pending ours false [9]).1 = .error .closedStream ∧
      p.streams.zeroRttRejected.isSome = true ∧ s'.zeroRttRejected.isSome = false) ∧
    ∃ p s', system.run client
        [.receive 10 (.stream ⟨theirs, 0, true, [1, 2, 3]⟩), .readUnordered theirs [1]] = some p ∧
      Chunks.new theirs true p.streams = .error (.illegalOrderedRead, s') ∧
      (readEither p.streams p.pending theirs false [9, 9]).2.1.maxRemote .uni = 2 ∧
      (readEither s' p.pending theirs false [9, 9]).2.1.maxRemote .uni = 1 :=
  ⟨⟨_, _, rfl, rfl, rfl, rfl, rfl, rfl⟩, _, _, rfl, rfl, rfl, rfl⟩

end Quac.FailedReads
