import Quac.ConnectionSteps
import Quac.SendSteps
import Quac.StreamSignals
import Quac.TileEngine

/-!
How many streams may be opened and are: only `open`, MAX_STREAMS frames and the
peer's transport parameters change that.
-/

namespace Quac.StreamOpens

open ConnectionSteps Identifiers ProtoConnection RecvSteps Relation
open SendSteps
open StreamAccess StreamSignals StreamTransmit Streams Streams.StreamsState
open TransmitShape

def availables (s : StreamsState) (dir : Dir) : Nat :=
  s.events.count (.available dir)

structure SameOpens (s s' : StreamsState) : Prop where
  side : s'.side = s.side
  next : s'.next = s.next
  max : s'.max = s.max
  available : ∀ dir, availables s' dir = availables s dir

namespace SameOpens

variable {s s' s'' : StreamsState}

theorem refl : SameOpens s s :=
  ⟨rfl, rfl, rfl, fun _ => rfl⟩

theorem trans (h : SameOpens s s') (h' : SameOpens s' s'') : SameOpens s s'' :=
  ⟨h'.side.trans h.side, h'.next.trans h.next, h'.max.trans h.max,
    fun dir => (h'.available dir).trans (h.available dir)⟩

theorem of_events (hside : s'.side = s.side) (hnext : s'.next = s.next) (hmax : s'.max = s.max)
    (hevents : s'.events = s.events) : SameOpens s s' :=
  ⟨hside, hnext, hmax, fun _ => by rw [availables, availables, hevents]⟩

theorem after (h : SameOpens s' s'') (hside : s'.side = s.side) (hnext : s'.next = s.next)
    (hmax : s'.max = s.max) (hevents : s'.events = s.events) : SameOpens s s'' :=
  (of_events hside hnext hmax hevents).trans h

theorem pushEvent {event : StreamEvent} (h : ∀ dir, event ≠ .available dir) :
    SameOpens s { s with events := s.events ++ [event] } := by
  refine ⟨rfl, rfl, rfl, ?_⟩
  intro dir
  simp [availables, List.count_append, h dir]

theorem insert (remote : Bool) (id : StreamId) : SameOpens s (s.insert remote id) := by
  have hcounts : SameCounts s _ := .insert remote id
  refine of_events hcounts.side hcounts.next ?_ hcounts.events
  unfold StreamsState.insert
  dsimp only
  split_ifs <;> rfl

theorem of_admits (h : ReflTransGen AdmitStep s s') : SameOpens s s' := by
  induction h with
  | refl => exact refl
  | tail _ hstep ih =>
    refine ih.trans ?_
    cases hstep with
    | inserted id => exact insert true id
    | counted => exact of_events rfl rfl rfl rfl

theorem onStreamFrame (notify : Bool) (id : StreamId) :
    SameOpens s (s.onStreamFrame notify id) := by
  unfold StreamsState.onStreamFrame
  split_ifs
  · exact pushEvent (by simp)
  · exact refl
  · exact of_events rfl rfl rfl rfl
  · exact pushEvent (by simp)
  · exact refl

theorem of_absorbs (h : Absorbs True s s') : SameOpens s s' := by
  induction h with
  | refl => exact refl
  | tail _ hstep ih =>
    refine ih.trans ?_
    cases hstep with
    | freed id => exact (of_admits (admits_streamFreed _ id .recv)).after rfl rfl rfl rfl
    | credited =>
      unfold StreamsState.addReadCredits
      dsimp only
      split_ifs <;> exact of_events rfl rfl rfl rfl
    | announced => exact onStreamFrame _ _
    | _ => exact of_events rfl rfl rfl rfl

theorem of_steps (h : Steps .any s s') : SameOpens s s' := by
  induction h with
  | refl => exact refl
  | tail _ hstep ih =>
    refine ih.trans ?_
    cases hstep with
    | event _ hevent => exact pushEvent hevent
    | announced => exact onStreamFrame _ _
    | _ => exact of_events rfl rfl rfl rfl

theorem of_acks (h : Acks s s') : SameOpens s s' := by
  have hfreed : ∀ id unackedData, SameOpens s
      (StreamsState.streamFreed (StreamsState.removeSend { s with unackedData } id) id .send) :=
    fun id _ => (of_admits (admits_streamFreed _ id .send)).after rfl rfl rfl rfl
  cases h with
  | refl => exact refl
  | acked => exact of_events rfl rfl rfl rfl
  | freed id unackedData => exact hfreed id unackedData
  | finished id unackedData ht => exact (ht ▸ hfreed id unackedData).trans (pushEvent (by simp))

theorem acceptStream (dir : Dir) : SameOpens s (acceptStream s dir).2 := by
  unfold StreamAccess.acceptStream
  split_ifs <;> exact of_events rfl rfl rfl rfl

theorem writeControlFrames (maxSize : Nat) (w : Writer) :
    SameOpens w.streams (writeControlFrames maxSize w).streams := by
  refine ControlRule.writeControlFrames ⟨fun h hstep => trans h ?_⟩ maxSize refl
  cases hstep <;> exact of_events rfl rfl rfl rfl

theorem streamStep {packets : List PacketInput} (h : StreamStep packets s s') : SameOpens s s' ∨
    (∃ dir count, .maxStreams dir count ∈ framesOf packets ∧
      s.receivedMaxStreams dir count = .ok s') ∨
    ∃ limits ∈ paramsOf packets, s' = s.setParams limits := by
  cases h with
  | received h => exact .inl (of_absorbs (absorbs_received h))
  | receivedReset h => exact .inl (of_absorbs (absorbs_receivedReset h))
  | maxStreamData h => exact .inl (of_steps (steps_receivedMaxStreamData trivial h))
  | maxStreams hframe h => exact .inr (.inl ⟨_, _, hframe, h⟩)
  | maxData => exact .inl (of_events rfl rfl rfl rfl)
  | stopSending id errorCode => exact .inl (of_steps (steps_receivedStopSending s id errorCode))
  | resetAcked id => exact .inl (of_acks (acks_resetAcked s id))
  | acked frame => exact .inl (of_acks (acks_receivedAckOf s frame))
  | lost => exact .inl (of_steps (steps_retransmit trivial s trivial))
  | setParams limits hlimits => exact .inr (.inr ⟨limits, hlimits, rfl⟩)

end SameOpens

structure SamePolls (c c' : Connection) : Prop where
  streams : SameOpens c.streams c'.streams
  events : ∀ event, .stream event ∈ c'.events → .stream event ∈ c.events

namespace SamePolls

variable {c c' c'' : Connection}

theorem of_streams (h : SameOpens c.streams c'.streams) (hevents : c'.events = c.events) :
    SamePolls c c' :=
  ⟨h, fun _ hmem => hevents ▸ hmem⟩

theorem refl : SamePolls c c :=
  of_streams .refl rfl

theorem trans (h : SamePolls c c') (h' : SamePolls c' c'') : SamePolls c c'' :=
  ⟨h.streams.trans h'.streams, fun event hmem => h.events event (h'.events event hmem)⟩

theorem keep (h : SamePolls c c') (hstreams : c''.streams = c'.streams)
    (hevents : ∀ event, .stream event ∈ c''.events → .stream event ∈ c'.events) :
    SamePolls c c'' := by
  refine ⟨?_, fun event hmem => h.events event (hevents event hmem)⟩
  rw [hstreams]
  exact h.streams

theorem isLocal (c : Connection) : Local (SamePolls c) :=
  ⟨fun _ _ hstreams hevents h => h.keep hstreams hevents⟩

theorem rule (c : Connection) : InputRule [] (SamePolls c) := by
  refine (isLocal c).input fun c' s hstep h => ?_
  obtain hsame | ⟨_, _, hframe, -⟩ | ⟨_, hlimits, -⟩ := SameOpens.streamStep hstep
  · exact h.trans (of_streams hsame rfl)
  · cases hframe
  · cases hlimits

theorem pollTransmit (c : Connection) (input : Connection.TransmitInput) :
    SamePolls c (c.pollTransmit input).2 := by
  refine OutputRule.pollTransmit
    ⟨(isLocal c).closing, fun c' window datagramsUnblocked h => ?_⟩ input refl
  have hstreams : SamePolls c { c' with
      streams := (c'.populatePacket window datagramsUnblocked).streams } := by
    refine h.trans (of_streams ?_ rfl)
    unfold Connection.populatePacket
    refine SameOpens.trans ?_
      (.of_steps (steps_writeStreamFrames trivial window.2 c'.config.sendFairness _ _))
    exact .writeControlFrames window.2 ⟨window.1, c'.streams, c'.pending, [], false⟩
  exact (rule c).notify ((rule c).pending _ hstreams) datagramsUnblocked (by simp) (by simp)

theorem handleTimeout (c : Connection) (now : Instant) (input : Connection.TimeoutInput) :
    SamePolls c (c.handleTimeout now input) :=
  (rule c).handleTimeout now input refl

end SamePolls

/-- `Q` is kept by all that the packets can do. -/
structure LimitRule (packets : List PacketInput) (Q : Connection → Prop) : Prop where
  same : ∀ c c', SamePolls c c' → Q c → Q c'
  maxStreams : ∀ c streams dir count, .maxStreams dir count ∈ framesOf packets →
    c.streams.receivedMaxStreams dir count = .ok streams → Q c → Q { c with streams }
  setParams : ∀ c limits, limits ∈ paramsOf packets → Q c →
    Q { c with streams := c.streams.setParams limits }

theorem LimitRule.inputRule {packets : List PacketInput} {Q : Connection → Prop}
    (h : LimitRule packets Q) : InputRule packets Q := by
  refine Local.input ⟨fun c c' hstreams hevents => h.same c c' (.keep .refl hstreams hevents)⟩
    fun c streams hstep hc => ?_
  obtain hsame | ⟨dir, count, hframe, hok⟩ | ⟨limits, hlimits, rfl⟩ := SameOpens.streamStep hstep
  · exact h.same c _ (.of_streams hsame rfl) hc
  · exact h.maxStreams c streams dir count hframe hok hc
  · exact h.setParams c limits hlimits hc

theorem new_opens (config : TransportConfig) : (Connection.new config).streams.next = (fun _ => 0) ∧
      ∀ dir, availables (Connection.new config).streams dir = 0 := by
  have hstreams : SameOpens _ (Connection.new config).streams :=
    .of_admits ((admits_insertRemote _ .bi 0 _).trans (admits_insertRemote _ .uni 0 _))
  exact ⟨hstreams.next, fun dir => hstreams.available dir⟩

end Quac.StreamOpens
