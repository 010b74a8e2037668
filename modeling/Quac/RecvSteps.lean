import Mathlib.Logic.Relation
import Quac.StreamAccess

/-!
The receiving side at work.  What frames bring and what is read of it comes down to small
steps: a receiving half changes or is freed, and what was received and read is noted.
-/

namespace Quac.RecvSteps

open Identifiers RecvHalf Relation StreamAccess Streams

/-- Streams are announced only where a frame is `heard`. -/
inductive RecvStep (heard : Prop) (s : StreamsState) : StreamsState → Prop
  | setRecv (id : StreamId) (recv : Recv) : RecvStep heard s (s.setRecv id recv)
  | removeRecv (id : StreamId) : RecvStep heard s (s.removeRecv id)
  | freed (id : StreamId) (recv : StreamRecv) : RecvStep heard s (s.streamRecvFreed id recv)
  | received (dataRecvd : Nat) : RecvStep heard s { s with dataRecvd }
  | credited (credits : Nat) : RecvStep heard s (s.addReadCredits credits).2
  | announced (h : heard) (notify : Bool) (id : StreamId) :
      RecvStep heard s (s.onStreamFrame notify id)

abbrev Absorbs (heard : Prop) : StreamsState → StreamsState → Prop :=
  ReflTransGen (RecvStep heard)

variable {s : StreamsState} {id : StreamId} {heard : Prop}

/-- Streams of the peer take the place of those that are freed. -/
inductive AdmitStep (s : StreamsState) : StreamsState → Prop
  | inserted (id : StreamId) : AdmitStep s (s.insert true id)
  | counted (maxRemote allocatedRemoteCount : Dir → Nat) (sendStreams : Nat) :
      AdmitStep s { s with maxRemote, allocatedRemoteCount, sendStreams }

theorem admits_insertRemote (s : StreamsState) (dir : Dir) (start count : Nat) :
    ReflTransGen AdmitStep s (s.insertRemote dir start count) := by
  unfold StreamsState.insertRemote
  generalize List.range count = indices
  induction indices generalizing s with
  | nil => exact .refl
  | cons _ _ ih => exact .head (.inserted _) (ih _)

theorem admits_streamFreed (s : StreamsState) (id : StreamId) (half : StreamHalf) :
    ReflTransGen AdmitStep s (s.streamFreed id half) := by
  unfold StreamsState.streamFreed
  dsimp only
  split_ifs
  · refine .head (.counted s.maxRemote (Function.update s.allocatedRemoteCount id.dir
      (s.allocatedRemoteCount id.dir - 1)) s.sendStreams) ?_
    cases half <;> exact (admits_insertRemote _ id.dir _ _).tail (.counted _ _ _)
  · cases half
    · exact .single (.counted _ _ _)
    · exact .refl

theorem absorbs_received {frame : StreamFrame} {payloadLen : Nat} {r : Bool × StreamsState}
    (h : s.received frame payloadLen = .ok r) : Absorbs True s r.2 := by
  unfold StreamsState.received at h
  simp only [bind, Except.bind, pure, Except.pure] at h
  split at h
  · cases h
  split at h
  · cases h
    exact .refl
  split_ifs at h
  · cases h
    exact .single (.setRecv _ _)
  split at h
  · cases h
  have hingested : ∀ (recv recv' : Recv) (n : Nat), Absorbs True s
      { (s.setRecv frame.id recv).setRecv frame.id recv' with dataRecvd := n } := fun _ _ n =>
    (ReflTransGen.single (.setRecv _ _)).tail (.setRecv _ _) |>.tail (.received n)
  split_ifs at h <;> cases h
  · exact (hingested _ _ _).tail (.announced trivial _ _)
  · exact (((hingested _ _ _).tail (.removeRecv _)).tail (.freed _ _)).tail (.credited _)
  · exact (hingested _ _ _).tail (.credited _)

theorem absorbs_receivedReset {errorCode finalOffset : Nat} {r : Bool × StreamsState}
    (h : s.receivedReset id errorCode finalOffset = .ok r) : Absorbs True s r.2 := by
  unfold StreamsState.receivedReset at h
  simp only [bind, Except.bind, pure, Except.pure] at h
  split at h
  · cases h
  split at h
  · cases h
    exact .refl
  split at h
  · cases h
  split at h
  · cases h
    exact .single (.setRecv _ _)
  rename_i recv _ _ _ recv' _
  generalize ht : (if recv'.stopped = true then
      (((s.setRecv id recv).setRecv id recv').removeRecv id).streamRecvFreed id (.opened recv')
      else (s.setRecv id recv).setRecv id recv') = t at h
  have hended : Absorbs True s t := by
    have hset : Absorbs True s ((s.setRecv id recv).setRecv id recv') :=
      (ReflTransGen.single (.setRecv id recv)).tail (.setRecv id recv')
    rw [← ht]
    split_ifs
    · exact (hset.tail (.removeRecv id)).tail (.freed id _)
    · exact hset
  have hannounced := hended.tail (.announced trivial (!recv'.stopped) id)
  split_ifs at h <;> cases h
  · exact (hannounced.tail (.received _)).tail (.credited _)
  · exact hannounced

theorem absorbs_stopStream (s : StreamsState) (pending : Retransmits) (id : StreamId)
    (errorCode : Nat) : Absorbs heard s (stopStream s pending id errorCode).2.1 := by
  unfold stopStream
  split
  · exact .refl
  split
  · exact .single (.setRecv _ _)
  refine .tail ?_ (.credited _)
  split_ifs
  · exact .single (.setRecv _ _)
  · exact ((ReflTransGen.single (.setRecv _ _)).tail (.removeRecv _)).tail (.freed _ _)

theorem absorbs_receivedResetCode (s : StreamsState) (pending : Retransmits) (id : StreamId) :
    Absorbs heard s (receivedResetCode s pending id).2.1 := by
  unfold receivedResetCode
  split
  · exact .refl
  · split_ifs
    · exact .refl
    · split
      · exact .refl
      · exact (ReflTransGen.single (.removeRecv id)).tail (.freed id _)
  · exact .refl

theorem absorbs_next (c : Chunks) (maxLength : Nat) :
    Absorbs heard c.streams (c.next maxLength).2.streams := by
  unfold Chunks.next
  split
  · exact .refl
  · exact .refl
  · split
    · exact .refl
    · dsimp only
      split
      · exact .single (.freed _ _)
      · split_ifs
        · exact .single (.freed _ _)
        · exact .refl

theorem absorbs_nextEach (c : Chunks) (maxLengths : List Nat) :
    Absorbs heard c.streams (c.nextEach maxLengths).2.streams := by
  induction maxLengths generalizing c with
  | nil => exact .refl
  | cons maxLength _ ih => exact (absorbs_next c maxLength).trans (ih _)

theorem absorbs_finalize (c : Chunks) (pending : Retransmits) :
    Absorbs heard c.streams (c.finalize pending).1 := by
  unfold Chunks.finalize
  split
  · exact (ReflTransGen.single (.setRecv _ _)).tail (.credited _)
  all_goals exact .single (.credited _)

theorem absorbs_chunks_new (s : StreamsState) (id : StreamId) (ordered : Bool) :
    (∀ error t, Chunks.new id ordered s = .error (error, t) → Absorbs heard s t) ∧
      ∀ chunks, Chunks.new id ordered s = .ok chunks → Absorbs heard s chunks.streams := by
  unfold Chunks.new
  constructor
  · intro error t h
    split at h
    · cases h
      exact .refl
    · split_ifs at h
      · cases h
        exact .single (.setRecv id _)
      · split at h
        · cases h
          exact .single (.removeRecv id)
        · cases h
  · intro chunks h
    split at h
    · cases h
    · split_ifs at h
      split at h
      · cases h
      · cases h
        exact .single (.removeRecv id)

theorem absorbs_readEither (s : StreamsState) (pending : Retransmits) (id : StreamId)
    (ordered : Bool) (maxLengths : List Nat) :
    Absorbs heard s (readEither s pending id ordered maxLengths).2.1 := by
  unfold readEither
  rcases hnew : Chunks.new id ordered s with ⟨e, t⟩ | chunks
  · exact (absorbs_chunks_new s id ordered).1 e t hnew
  · have hstart : Absorbs heard s chunks.streams :=
      (absorbs_chunks_new s id ordered).2 chunks hnew
    exact (hstart.trans (absorbs_nextEach chunks maxLengths)).trans (absorbs_finalize _ _)

theorem readStream_eq (s : StreamsState) (pending : Retransmits) (id : StreamId)
    (maxLengths : List Nat) :
    (readStream s pending id maxLengths).2 = (readEither s pending id true maxLengths).2 := by
  unfold readStream readEither
  rcases Chunks.new id true s with ⟨e, t⟩ | _ <;> rfl

theorem absorbs_readStream (s : StreamsState) (pending : Retransmits) (id : StreamId)
    (maxLengths : List Nat) : Absorbs heard s (readStream s pending id maxLengths).2.1 := by
  rw [readStream_eq]
  exact absorbs_readEither s pending id true maxLengths

end Quac.RecvSteps
