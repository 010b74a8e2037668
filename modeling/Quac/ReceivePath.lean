import Quac.ConnectionSteps
import Quac.ReadableStreams

/-!
What the inputs of a connection mean for those who read its streams: datagrams
announce the data they bring, and nothing else brings any.
-/

namespace Quac.ReceivePath

open ConnectionSteps Identifiers ProtoConnection ReadableStreams RecvHalf
open SendSteps StreamTransmit Streams TransmitShape Quiet

theorem quiet_controlStep {w w' : Writer} (h : ControlStep w w') : Quiet w.streams w'.streams := by
  cases h with
  | maxStreamData _ id _ hrecv =>
    refine ⟨.of_sameCounts (.setRecv id _) fun hfresh => hfresh, fun _ j => .inl ?_⟩
    rw [half_setRecv]
    split_ifs with heq
    · subst heq
      simp only [half, StreamsState.getRecv, hrecv, Option.map_some, getOrInsertRecv]
      unfold Recv.recordSentMaxStreamData
      split_ifs <;> rfl
    · rfl
  | _ => exact .of_sameReceive ⟨rfl, rfl, rfl, rfl, rfl, rfl, rfl, rfl, rfl⟩

theorem quiet_writeControlFrames (maxSize : Nat) (w : Writer) :
    Quiet w.streams (writeControlFrames maxSize w).streams :=
  ControlRule.writeControlFrames ⟨fun h hstep => trans h (quiet_controlStep hstep)⟩ maxSize
    refl

theorem quiet_pollTransmit (c : Connection) (input : Connection.TransmitInput) :
    Quiet c.streams (c.pollTransmit input).2.streams := by
  have hrule : OutputRule fun c' => Quiet c.streams c'.streams := by
    refine ⟨Local.closing ⟨fun c₁ c₂ hstreams _ h => ?_⟩, fun c' window _ h => ?_⟩
    · rw [hstreams]
      exact h
    · unfold Connection.populatePacket
      refine Quiet.trans (h.trans ?_)
        (.of_steps (steps_writeStreamFrames trivial window.2 c'.config.sendFairness _ _))
      exact quiet_writeControlFrames window.2 ⟨window.1, c'.streams, c'.pending, [], false⟩
  exact hrule.pollTransmit input .refl

theorem streams_closeInner (c : Connection) (now : Instant) (pto : Nat) :
    (c.closeInner now pto).streams = c.streams := by
  unfold Connection.closeInner
  split_ifs <;> rfl

theorem receives_streamStep {packets : List PacketInput} {s s' : StreamsState}
    (h : StreamStep packets s s') : Receives s s' := by
  cases h with
  | received h => exact .received h
  | receivedReset h => exact .receivedReset h
  | maxStreamData h => exact (of_steps (steps_receivedMaxStreamData trivial h)).receives
  | maxStreams _ h =>
    unfold StreamsState.receivedMaxStreams at h
    split_ifs at h <;> cases h
    · apply receives
      exact .of_recv rfl rfl rfl (fun _ => le_rfl) rfl fun _ h => List.mem_append_left _ h
    · exact refl.receives
  | stopSending id errorCode =>
    exact (of_steps (steps_receivedStopSending s id errorCode)).receives
  | resetAcked id => exact (of_acks (acks_resetAcked _ id)).receives
  | acked frame => exact (of_acks (acks_receivedAckOf _ frame)).receives
  | lost => exact (of_steps (steps_retransmit trivial s trivial)).receives
  | maxData | setParams =>
    refine (of_sameReceive ?_).receives
    exact ⟨rfl, rfl, rfl, rfl, rfl, rfl, rfl, rfl, rfl⟩

theorem receives_rule (packets : List PacketInput) (s : StreamsState) :
    InputRule packets fun c => Receives s c.streams := by
  refine Local.input ⟨fun c c' hstreams _ h => ?_⟩ fun c streams hstep h => ?_
  · rw [hstreams]
    exact h
  · exact h.trans (receives_streamStep hstep)

end Quac.ReceivePath
