import Mathlib.Logic.Relation
import Quac.TransmitShape

/-!
The sending side at work.  Writing, ending and resending streams come down to small steps:
a sending half changes, or what is noted beside the halves, or an event is reported.
-/

namespace Quac.SendSteps

open Identifiers Relation SendData SendHalf StreamAccess StreamTransmit Streams TransmitShape
open StreamsState

/-- What is allowed besides changes that concern neither credit nor the queue. -/
structure Scope where
  /-- Streams that may be finished or reset. -/
  ended : StreamId → Prop
  /-- Streams that may be put into the queue. -/
  touched : StreamId → Prop
  /-- Credit may be used and granted. -/
  credit : Prop
  /-- Data may be sent again. -/
  lost : Prop
  /-- Frames may be taken from streams. -/
  sends : Prop

def Scope.any : Scope :=
  ⟨fun _ => True, fun _ => True, True, True, True⟩

/-- A change to one half; `queues` says whether it leaves something to send. -/
inductive HalfStep (scope : Scope) (id : StreamId) (half : Send) : (queues : Bool) → Send → Prop
  | same : HalfStep scope id half false half
  | flagged (h : scope.credit) (connectionBlocked : Bool) :
      HalfStep scope id half false { half with connectionBlocked }
  | prioritized (priority : Int) : HalfStep scope id half false { half with priority }
  | stopped (errorCode : Nat) : HalfStep scope id half false (half.tryStop errorCode).2
  | raised (h : scope.credit) (limit : Nat) :
      HalfStep scope id half false (half.increaseMaxData limit).2
  | reset (h : scope.ended id) : HalfStep scope id half false half.reset
  | written (h : scope.credit) {data : Bytes} {limit : Nat} {written : Written} {half' : Send}
      (hwrite : half.write data limit = .ok (written, half')) : HalfStep scope id half true half'
  | finished (h : scope.ended id) {half' : Send} (hfinish : half.finish = .ok half') :
      HalfStep scope id half true half'
  | lost (h : scope.lost) (frame : StreamMeta) : HalfStep scope id half true { half with
        finPending := half.finPending || frame.fin
        pending := half.pending.retransmit frame.start frame.stop }
  | rewound (h : scope.lost) :
      HalfStep scope id half true { half with pending := half.pending.retransmitAllFor0rtt }

inductive SendStep (scope : Scope) (s : StreamsState) : StreamsState → Prop
  | calm {id : StreamId} {half half' : Send} (hget : s.getSend id = some half)
      (h : HalfStep scope id half false half') : SendStep scope s (s.setSend id half')
  | filled {id : StreamId} {half half' : Send} (hget : s.getSend id = some half)
      (h : HalfStep scope id half true half') (htouched : scope.touched id) :
      SendStep scope s { s.setSend id half' with
        pending :=
          if half.isPending then s.pending else s.pending.pushPending id half.priority }
  | skipped (h : scope.sends) {p : PendingStream} {queue : PendingStreamsQueue}
      (hpop : s.pending.pop = some (p, queue))
      (hreset : ∀ half, s.send p.id = some (some half) → half.isReset = true) :
      SendStep scope s { s with pending := queue }
  | framed (h : scope.sends) {p : PendingStream} {queue : PendingStreamsQueue} {half half' : Send}
      (hpop : s.pending.pop = some (p, queue)) (hsend : s.send p.id = some (some half))
      (hstate : half'.state = half.state) (hoffset : half'.offset = half.offset)
      (hsame : half'.connectionBlocked = half.connectionBlocked ∧ half'.maxData = half.maxData)
      (fair : Bool) :
      SendStep scope s (StreamsState.setSend
        { s with pending := requeued fair queue p.id half' } p.id half')
  | listed (h : scope.credit) (connectionBlocked : List StreamId) :
      SendStep scope s { s with connectionBlocked }
  | counted (dataSent unackedData : Nat) : SendStep scope s { s with dataSent, unackedData }
  | event (event : StreamEvent) (hevent : ∀ dir, event ≠ .available dir) :
      SendStep scope s { s with events := s.events ++ [event] }
  | announced (id : StreamId) : SendStep scope s (s.onStreamFrame false id)

abbrev Steps (scope : Scope) : StreamsState → StreamsState → Prop :=
  ReflTransGen (SendStep scope)

variable {s s' : StreamsState} {id : StreamId} {scope : Scope}

/-- What an acknowledgement changes: a half, or a stream is done with. -/
inductive Acks (s : StreamsState) : StreamsState → Prop
  | refl : Acks s s
  | acked {half : Send} {frame : StreamMeta} (hsend : s.send frame.id = some (some half))
      (unackedData : Nat) :
      Acks s (StreamsState.setSend { s with unackedData } frame.id (half.ack frame).2)
  | freed (id : StreamId) (unackedData : Nat) :
      Acks s ((StreamsState.removeSend { s with unackedData } id).streamFreed id .send)
  | finished (id : StreamId) (unackedData : Nat) {t : StreamsState}
      (ht : t = (StreamsState.removeSend { s with unackedData } id).streamFreed id .send) :
      Acks s { t with events := t.events ++ [.finished id] }

theorem acks_resetAcked (s : StreamsState) (id : StreamId) : Acks s (s.resetAcked id) := by
  unfold resetAcked
  split
  · split_ifs
    · exact .freed id s.unackedData
    · exact .refl
  · exact .refl

theorem acks_receivedAckOf (s : StreamsState) (frame : StreamMeta) :
    Acks s (s.receivedAckOf frame) := by
  unfold receivedAckOf
  split
  · rename_i half hsend
    dsimp only
    split_ifs
    · exact .refl
    · exact .finished frame.id _ rfl
    · exact .acked hsend _
  · exact .refl

theorem HalfStep.state {half half' : Send} {queues : Bool}
    (h : HalfStep scope id half queues half') : half'.state = half.state ∨ scope.ended id := by
  cases h with
  | stopped =>
    unfold Send.tryStop
    split <;> exact .inl rfl
  | raised =>
    unfold Send.increaseMaxData
    split_ifs <;> exact .inl rfl
  | written _ hwrite =>
    obtain ⟨-, -, -, -, heq⟩ := Send.write_eq_ok hwrite
    rw [heq]
    split_ifs <;> exact .inl rfl
  | reset h | finished h => exact .inr h
  | _ => exact .inl rfl

theorem getSend_of_send {half : Send} (h : s.send id = some (some half)) :
    s.getSend id = some half := by
  simp [getSend, h]

theorem getSend_setSend (s : StreamsState) (id : StreamId) (half : Send) :
    (s.setSend id half).getSend id = some half := by
  simp [getSend, setSend]

theorem steps_writeStream (hcredit : scope.credit) (htouched : scope.touched id)
    (s : StreamsState) (closed : Bool) (data : Bytes) :
    Steps scope s (writeStream s closed id data).2 := by
  unfold writeStream
  by_cases hclosed : closed = true
  · rw [if_pos hclosed]
  rw [if_neg hclosed]
  rcases hget : s.getSend id with _ | half
  · exact .refl
  have hset : Steps scope s (s.setSend id half) := .single (.calm hget .same)
  have hget' := getSend_setSend s id half
  dsimp only
  by_cases hlimit : s.writeLimit = 0
  · split_ifs
    · exact hset
    · exact (hset.tail (.calm hget' (.flagged hcredit true))).tail (.listed hcredit _)
  · rw [if_neg hlimit]
    rcases hwrite : half.write data s.writeLimit with e | ⟨written, _⟩
    · exact hset
    · exact (hset.tail (.filled hget' (.written hcredit hwrite) htouched)).tail (.counted _ _)

theorem steps_finishStream (hended : scope.ended id) (htouched : scope.touched id) :
    Steps scope s (finishStream s id).2 := by
  unfold finishStream
  rcases hget : s.getSend id with _ | half
  · exact .refl
  dsimp only
  rcases hfinish : half.finish with e | _
  · exact .single (.calm hget .same)
  · exact .single (.filled hget (.finished hended hfinish) htouched)

theorem steps_resetStream (hended : scope.ended id) (pending : Retransmits) (errorCode : Nat) :
    Steps scope s (resetStream s pending id errorCode).2.1 := by
  unfold resetStream
  rcases hget : s.getSend id with _ | _
  · exact .refl
  dsimp only
  split_ifs
  · exact .single (.calm hget .same)
  · exact .tail (.single (.calm hget (.reset hended))) (.counted _ _)

theorem steps_setPriority (s : StreamsState) (id : StreamId) (priority : Int) :
    Steps scope s (setPriority s id priority).2 := by
  unfold setPriority
  rcases hget : s.getSend id with _ | _
  · exact .refl
  · exact .single (.calm hget (.prioritized priority))

theorem steps_pollBlocked (hcredit : scope.credit) (s : StreamsState) (ids : List StreamId) :
    Steps scope s (s.pollBlocked ids).2 := by
  induction ids generalizing s with
  | nil => exact .single (.listed hcredit [])
  | cons id _ ih =>
    unfold pollBlocked
    split
    · rename_i half hsend
      have hset : Steps scope s (s.setSend id { half with connectionBlocked := false }) :=
        .single (.calm (getSend_of_send hsend) (.flagged hcredit false))
      split_ifs
      · exact hset.tail (.listed hcredit _)
      · exact hset.trans (ih _)
    · exact ih s

theorem steps_poll (scope : Scope) (hcredit : scope.credit) (s : StreamsState) :
    ∃ t opened events, Steps scope s t ∧ s.poll.2 = { t with opened, events } := by
  unfold poll
  split
  · exact ⟨s, _, s.events, .refl, rfl⟩
  · have hblocked : Steps scope s (if 0 < s.writeLimit then
        s.pollBlocked s.connectionBlocked.reverse else (none, s)).2 := by
      split_ifs
      · exact steps_pollBlocked hcredit s _
      · exact .refl
    generalize (if 0 < s.writeLimit then _ else _) = r at hblocked ⊢
    rcases r with ⟨_ | _, t⟩
    · exact ⟨t, t.opened, t.events.tail, hblocked, rfl⟩
    · exact ⟨t, t.opened, t.events, hblocked, rfl⟩

theorem steps_receivedStopSending (s : StreamsState) (id : StreamId) (errorCode : Nat) :
    Steps scope s (s.receivedStopSending id errorCode) := by
  unfold receivedStopSending
  rcases hget : s.getSend id with _ | half
  · exact .refl
  have hset : Steps scope s (s.setSend id (half.tryStop errorCode).2) :=
    .single (.calm hget (.stopped errorCode))
  dsimp only
  split_ifs
  · exact (hset.tail (.event (.stopped id errorCode) (by simp))).tail (.announced id)
  · exact hset

theorem steps_receivedMaxStreamData (hcredit : scope.credit) {limit : Nat}
    (h : s.receivedMaxStreamData id limit = .ok s') : Steps scope s s' := by
  unfold receivedMaxStreamData at h
  split at h
  · cases h
  rcases hget : s.getSend id with _ | half
  · simp only [hget] at h
    split_ifs at h
    cases h
    exact .single (.announced id)
  · have hset : Steps scope s (s.setSend id (half.increaseMaxData limit).2) :=
      .single (.calm hget (.raised hcredit limit))
    have hflagged := hset.tail (.calm (getSend_setSend _ _ _) (.flagged hcredit true))
    simp only [setSend, Function.update_idem] at hflagged
    simp only [hget] at h
    split_ifs at h <;> cases h <;> refine .tail ?_ (.announced id)
    · exact hset.tail (.event (.writable id) (by simp))
    · exact hflagged.tail (.listed hcredit _)
    · exact hset
    · exact hset

theorem steps_retransmit (hlost : scope.lost) (s : StreamsState) {frame : StreamMeta}
    (htouched : scope.touched frame.id) : Steps scope s (s.retransmit frame) := by
  unfold retransmit
  split
  · rename_i half hsend
    exact .single (.filled (getSend_of_send hsend) (.lost hlost frame) htouched)
  · exact .refl

theorem steps_rewind (hlost : scope.lost) (s : StreamsState) (htouched : scope.touched id) :
    Steps scope s (s.rewind id) := by
  unfold rewind
  split
  · rename_i half hsend
    split
    · exact .refl
    · exact .single (.filled (getSend_of_send hsend) (.rewound hlost) htouched)
  · exact .refl

theorem steps_retransmitAllFor0rtt (hlost : scope.lost) (htouched : ∀ id, scope.touched id)
    (s : StreamsState) : Steps scope s s.retransmitAllFor0rtt :=
  retransmitAllFor0rtt_induct (P := Steps scope s)
    (fun t id h => h.trans (steps_rewind hlost t (htouched id))) .refl

theorem steps_writeStreamFrames (hsends : scope.sends) (maxSize : Nat) (fair : Bool) (fuel : Nat)
    (w : Writer) : Steps scope w.streams (writeStreamFrames maxSize fair fuel w).2.streams := by
  refine writeStreamFrames_invariant (fun v => Steps scope w.streams v.streams) ?_ ?_ fuel .refl
  · intro v p queue hv hpop hreset
    exact hv.tail (.skipped hsends hpop hreset)
  · intro v p queue half hv _ hpop hsend _
    obtain ⟨_, _, _, buffer, _, _, hpoll, -, rfl, hstreams, -⟩ :=
      writeStreamFrame_spec maxSize fair (taken v queue) p.id half
    have hoffset : buffer.offset = half.pending.offset := by
      rw [← SendBuffer.pollTransmit_offset half.pending, hpoll]
    rw [hstreams]
    refine hv.tail (.framed hsends hpop hsend ?_ ?_ ?_ fair)
    · rfl
    · exact hoffset
    · exact ⟨rfl, rfl⟩

end Quac.SendSteps
