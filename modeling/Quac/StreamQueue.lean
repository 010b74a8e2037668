import Quac.PartySteps
import Quac.SendPath
import Quac.SendSteps

/-!
The streams that wait to be sent on.  Only a write, a finish and a loss put a stream
into the queue, so that every STREAM frame is from a stream that its user has touched.
-/

namespace Quac.StreamQueue

open Identifiers RecvHalf RecvSteps SendPath SendSteps StreamAccess StreamAccounts
open StreamParty StreamTransmit Streams StreamsState TransmitShape List

def queued (q : PendingStreamsQueue) : List StreamId :=
  (q.next.toList ++ q.streams).map PendingStream.id

variable {q q' : PendingStreamsQueue} {s s' : StreamsState} {id : StreamId}

section Queue

variable {p : PendingStream}

theorem queued_pushPending_perm (q : PendingStreamsQueue) (id : StreamId) (priority : Int) :
    (queued (q.pushPending id priority)).Perm (id :: queued q) :=
  (((perm_orderedInsert _ _ _).append_left _).trans perm_middle).map _

theorem mem_queued_pushPending {j : StreamId} {priority : Int} :
    j ∈ queued (q.pushPending id priority) ↔ j = id ∨ j ∈ queued q :=
  (queued_pushPending_perm q id priority).mem_iff.trans mem_cons

theorem queued_reinsertPending {j : StreamId} {priority : Int}
    (h : j ∈ queued (q.reinsertPending id priority)) : j = id ∨ j ∈ queued q := by
  obtain ⟨p, hp, rfl⟩ := mem_map.mp h
  rcases mem_append.mp hp with hp | hp
  · rw [Option.mem_toList] at hp
    cases hp
    exact .inl rfl
  · exact .inr (mem_map_of_mem (mem_append_right _ hp))

theorem pop_eq_some (h : q.pop = some (p, q')) : q'.next = none ∧ q'.recency = q.recency ∧
      (q.next = some p ∧ q'.streams = q.streams ∨ q.next = none ∧ q.streams = p :: q'.streams) := by
  obtain ⟨streams, next, _⟩ := q
  rcases next with _ | _
  · rcases streams with _ | ⟨_, _⟩ <;> cases h
    exact ⟨rfl, rfl, .inr ⟨rfl, rfl⟩⟩
  · cases h
    exact ⟨rfl, rfl, .inl ⟨rfl, rfl⟩⟩

theorem queued_eq_cons_of_pop (h : q.pop = some (p, q')) :
    queued q = p.id :: queued q' := by
  obtain ⟨hnext, -, ⟨hfirst, heq⟩ | ⟨hfirst, heq⟩⟩ := pop_eq_some h <;>
    rw [queued, queued, hnext, hfirst, heq] <;> rfl

theorem queued_pop (h : q.pop = some (p, q')) :
    p.id ∈ queued q ∧ ∀ j ∈ queued q', j ∈ queued q := by
  rw [queued_eq_cons_of_pop h]
  exact ⟨mem_cons_self, fun j hj => mem_cons_of_mem _ hj⟩

end Queue

/-- What may be done without a frame being sent, where only these streams are queued. -/
def touching (touched : StreamId → Prop) : Scope :=
  { Scope.any with touched, sends := False }

theorem queued_of_steps (touched : StreamId → Prop) {j : StreamId}
    (h : Steps (touching touched) s s') (hj : j ∈ queued s'.pending) :
    touched j ∨ j ∈ queued s.pending := by
  induction h with
  | refl => exact .inr hj
  | tail _ hstep ih =>
    cases hstep with
    | filled _ _ htouched =>
      split_ifs at hj
      · exact ih hj
      · rcases mem_queued_pushPending.mp hj with rfl | hj
        · exact .inl htouched
        · exact ih hj
    | skipped h | framed h => exact h.elim
    | announced id => exact ih ((kept_onStreamFrame _ false id).pending ▸ hj)
    | calm | listed | counted | event => exact ih hj

theorem pending_of_steps (h : Steps (touching fun _ => False) s s') : s'.pending = s.pending := by
  induction h with
  | refl => rfl
  | tail _ hstep ih =>
    cases hstep with
    | filled _ _ htouched => exact htouched.elim
    | skipped h | framed h => exact h.elim
    | announced id => exact (kept_onStreamFrame _ false id).pending.trans ih
    | calm | listed | counted | event => exact ih

theorem pending_of_acks (h : Acks s s') : s'.pending = s.pending := by
  have hfreed : ∀ id unackedData, ((removeSend { s with unackedData } id).streamFreed
      id .send).pending = s.pending := by
    intro id unackedData
    obtain ⟨t, hkept, heq⟩ := streamFreed_send (removeSend { s with unackedData } id) id
    rw [heq]
    exact hkept.pending
  cases h with
  | refl | acked => rfl
  | freed id unackedData => exact hfreed id unackedData
  | finished id unackedData ht => exact ht ▸ hfreed id unackedData

theorem pending_openStream (dir : Dir) : (openStream s false dir).2.pending = s.pending := by
  have hopens := opens s dir
  generalize openStream s false dir = r at hopens ⊢
  cases hopens <;> rfl

section Packets

structure FromQueue (w w' : Writer) : Prop where
  queue : ∀ j ∈ queued w'.streams.pending, j ∈ queued w.streams.pending
  frames : ∀ frame, .stream frame ∈ w'.frames →
    .stream frame ∈ w.frames ∨ frame.id ∈ queued w.streams.pending

variable {w w' w'' : Writer}

theorem FromQueue.refl (w : Writer) : FromQueue w w :=
  ⟨fun _ h => h, fun _ h => .inl h⟩

theorem FromQueue.trans (h : FromQueue w w') (h' : FromQueue w' w'') : FromQueue w w'' := by
  refine ⟨fun j hj => h.queue j (h'.queue j hj), fun frame hframe => ?_⟩
  rcases h'.frames frame hframe with hframe | hid
  · exact h.frames frame hframe
  · exact .inr (h.queue _ hid)

theorem writeStreamFrames_fromQueue (maxSize : Nat) (fair : Bool) (fuel : Nat) :
    FromQueue w (writeStreamFrames maxSize fair fuel w).2 := by
  refine writeStreamFrames_invariant (FromQueue w) ?_ ?_ fuel (.refl w)
  · intro v p queue hv hpop _
    exact hv.trans ⟨(queued_pop hpop).2, fun _ h => .inl h⟩
  · intro v p queue half hv _ hpop _ _
    obtain ⟨_, _, _, _, _, _, -, -, -, hstreams, hframes, -⟩ :=
      writeStreamFrame_spec maxSize fair (taken v queue) p.id half
    obtain ⟨hid, hqueue⟩ := queued_pop hpop
    refine hv.trans ⟨fun j hj => ?_, fun frame hframe => ?_⟩
    · rw [hstreams] at hj
      have hcases : j = p.id ∨ j ∈ queued queue := by
        simp only [setSend, taken, requeued] at hj
        split_ifs at hj
        · exact mem_queued_pushPending.mp hj
        · exact queued_reinsertPending hj
        · exact .inr hj
      rcases hcases with rfl | hj
      · exact hid
      · exact hqueue j hj
    · rw [hframes, mem_append, mem_singleton, StreamsFrame.stream.injEq] at hframe
      rcases hframe with hframe | rfl
      · exact .inl hframe
      · exact .inr hid

end Packets

section Party

variable {p p' : Party} {j : StreamId}

theorem queued_new (side : Side) (uni bi sendWindow receiveWindow streamWindow : Nat)
    (params : StreamsState.PeerLimits) :
    queued (Party.new side uni bi sendWindow receiveWindow streamWindow params).streams.pending =
      [] := by
  have hnew : (new side uni bi sendWindow receiveWindow streamWindow).pending = .new := by
    unfold new
    rw [insertRemote_rest, insertRemote_rest]
  change queued (new side uni bi sendWindow receiveWindow streamWindow).pending = []
  rw [hnew]
  rfl

theorem call_queued {c : Call} (h : j ∈ queued (p.call c).2.streams.pending) :
    j ∈ queued p.streams.pending ∨
      p.streams.getSend j ≠ none ∧ ((∃ data, c = .write j data) ∨ c = .finish j) := by
  cases c with
  | openStream dir => exact .inl (pending_openStream (s := p.streams) dir ▸ h)
  | acceptStream dir => exact .inl ((kept_acceptStream p.streams dir).pending ▸ h)
  | write id data =>
    by_cases hget : p.streams.getSend id = none
    · simp only [Party.call, writeStream, hget] at h
      exact .inl h
    rcases queued_of_steps (· = id) (steps_writeStream trivial rfl _ false data) h with rfl | h
    · exact .inr ⟨hget, .inl ⟨data, rfl⟩⟩
    · exact .inl h
  | finish id =>
    by_cases hget : p.streams.getSend id = none
    · simp only [Party.call, finishStream, hget] at h
      exact .inl h
    rcases queued_of_steps (· = id) (steps_finishStream trivial rfl) h with rfl | h
    · exact .inr ⟨hget, .inr rfl⟩
    · exact .inl h
  | reset _ errorCode =>
    exact .inl (pending_of_steps (steps_resetStream trivial p.pending errorCode) ▸ h)
  | read id maxLengths =>
    have hkept := Kept.of_absorbs (absorbs_readStream p.streams p.pending id maxLengths)
    exact .inl (hkept.pending ▸ h)
  | stop id errorCode =>
    exact .inl ((Kept.of_absorbs (absorbs_stopStream p.streams p.pending id errorCode)).pending ▸ h)
  | poll =>
    obtain ⟨t, _, _, hsteps, heq⟩ :=
      steps_poll (touching fun _ => False) trivial p.streams
    dsimp only [Party.call] at h
    rw [heq] at h
    exact .inl (pending_of_steps hsteps ▸ h)
  | setReceiveWindow window =>
    exact .inl ((kept_setReceiveWindow p.streams window).pending ▸ h)
  | setSendWindow => exact .inl h
  | setMaxConcurrentStreams dir count =>
    exact .inl ((kept_setMaxConcurrent p.streams dir count).pending ▸ h)

theorem receive_queued {payloadLen : Nat} {frame : StreamsFrame}
    (h : p.receive payloadLen frame = .ok p') : p'.streams.pending = p.streams.pending := by
  have haccepts := (Party.receive_accepts h).1
  generalize p'.streams = s' at haccepts ⊢
  cases haccepts with
  | stream _ hr => exact (Kept.of_absorbs (absorbs_received hr)).pending
  | resetStream _ _ _ hr => exact (Kept.of_absorbs (absorbs_receivedReset hr)).pending
  | stopSending id errorCode => exact pending_of_steps (steps_receivedStopSending _ id errorCode)
  | maxStreamData _ _ hr => exact pending_of_steps (steps_receivedMaxStreamData trivial hr)
  | maxStreams _ _ hr =>
    unfold receivedMaxStreams at hr
    split_ifs at hr <;> cases hr <;> rfl
  | maxData | streamsBlocked => rfl

theorem acked_queued (frame : StreamsFrame) :
    (p.acked frame).streams.pending = p.streams.pending := by
  cases frame with
  | stream => exact pending_of_acks (acks_receivedAckOf _ _)
  | resetStream id => exact pending_of_acks (acks_resetAcked _ id)
  | _ => rfl

theorem lost_queued {frame : StreamsFrame} (h : j ∈ queued (p.lost frame).streams.pending) :
    j ∈ queued p.streams.pending ∨ ∃ f : StreamFrame, frame = .stream f ∧ f.id = j := by
  cases frame with
  | stream frame =>
    have hsteps : Steps (touching (· = frame.id)) p.streams
        (p.streams.retransmit (streamMeta frame)) := steps_retransmit trivial _ rfl
    rcases queued_of_steps _ hsteps h with rfl | h
    · exact .inr ⟨frame, rfl, rfl⟩
    · exact .inl h
  | _ => exact .inl h

theorem transmit_queued {space : PacketSpace} {frames : List StreamsFrame}
    (h : p.transmit space = some (frames, p')) :
    (∀ j ∈ queued p'.streams.pending, j ∈ queued p.streams.pending) ∧
      ∀ frame, .stream frame ∈ frames → frame.id ∈ queued p.streams.pending := by
  obtain ⟨w, fuel, _, hcontrol, rfl, -, rfl, rfl⟩ :=
    (announced_rule _).transmit_eq_some ⟨rfl, fun _ h => h⟩ h
  have hstreams := writeStreamFrames_fromQueue (w := w) space.maxSize space.fair fuel
  have hpending : w.streams.pending = p.streams.pending := by rw [hcontrol.streams]
  rw [← hpending]
  refine ⟨hstreams.queue, fun frame hframe => (hstreams.frames frame hframe).resolve_left ?_⟩
  exact fun hmem => not_mem_nil (hcontrol.frames frame hmem)

end Party

end Quac.StreamQueue
