import Quac.ProtoEndpoint

/-!
How to reason about the inputs of a connection: what their elementary effects on its
streams keep, the whole keeps.
-/

namespace Quac.ConnectionSteps

open Identifiers ProtoConnection ProtoEndpoint RecvHalf SendHalf Streams Streams.StreamsState Timers
open Connection List

def framesOf (packets : List PacketInput) : List Frame :=
  packets.flatMap fun
    | .decrypted p => p.frames
    | _ => []

def paramsOf (packets : List PacketInput) : List PeerLimits :=
  packets.flatMap fun
    | .decrypted p =>
      match p.peerParams with
      | some (.ok (limits, _)) => [limits]
      | _ => []
    | _ => []

def packetsOf : Incoming → List PacketInput
  | .refused _ => []
  | .initial _ first rest buffered _ =>
    .decrypted first :: rest.packets ++ buffered.flatMap Connection.Datagram.packets

inductive StreamStep (packets : List PacketInput) (s : StreamsState) : StreamsState → Prop
  | received {frame : StreamFrame} {payloadLen : Nat} {maxData : Bool} {s' : StreamsState}
      (h : s.received frame payloadLen = .ok (maxData, s')) : StreamStep packets s s'
  | receivedReset {id : StreamId} {errorCode finalOffset : Nat} {maxData : Bool}
      {s' : StreamsState} (h : s.receivedReset id errorCode finalOffset = .ok (maxData, s')) :
      StreamStep packets s s'
  | maxStreamData {id : StreamId} {offset : Nat} {s' : StreamsState}
      (h : s.receivedMaxStreamData id offset = .ok s') : StreamStep packets s s'
  | maxStreams {dir : Dir} {count : Nat} {s' : StreamsState}
      (hframe : .maxStreams dir count ∈ framesOf packets)
      (h : s.receivedMaxStreams dir count = .ok s') : StreamStep packets s s'
  | maxData (bytes : Nat) : StreamStep packets s (s.receivedMaxData bytes)
  | stopSending (id : StreamId) (errorCode : Nat) :
      StreamStep packets s (s.receivedStopSending id errorCode)
  | resetAcked (id : StreamId) : StreamStep packets s (s.resetAcked id)
  | acked (frame : StreamMeta) : StreamStep packets s (s.receivedAckOf frame)
  | lost (frame : StreamMeta) : StreamStep packets s (s.retransmit frame)
  | setParams (limits : PeerLimits) (h : limits ∈ paramsOf packets) :
      StreamStep packets s (s.setParams limits)

variable {packets : List PacketInput} {Q : Connection → Prop} {c c' c'' : Connection}

structure Silent (c c' : Connection) : Prop where
  lost : ∀ reason, .connectionLost reason ∈ c'.events → .connectionLost reason ∈ c.events
  drained : .drained ∈ c'.endpointEvents ↔ .drained ∈ c.endpointEvents

structure Steady (c c' : Connection) : Prop extends Silent c c' where
  isClosed : c'.state.isClosed = c.state.isClosed
  isDrained : c'.state = .drained ↔ c.state = .drained
  error : c'.error = c.error
  closeTimer : c'.timers.get .close = c.timers.get .close

structure PeerCloses (c c' : Connection) : Prop extends Silent c c' where
  isClosed : c'.state.isClosed = true
  undrained : c'.state ≠ .drained
  error : c'.error ≠ none

theorem Silent.of_eq (hevents : c'.events = c.events)
    (hendpoint : c'.endpointEvents = c.endpointEvents) : Silent c c' :=
  ⟨fun _ h => hevents ▸ h, by rw [hendpoint]⟩

theorem Silent.trans (h : Silent c c') (h' : Silent c' c'') : Silent c c'' :=
  ⟨fun reason hr => h.lost reason (h'.lost reason hr), h'.drained.trans h.drained⟩

theorem Steady.refl : Steady c c :=
  ⟨.of_eq rfl rfl, rfl, Iff.rfl, rfl, rfl⟩

theorem Steady.trans (h : Steady c c') (h' : Steady c' c'') : Steady c c'' :=
  ⟨h.toSilent.trans h'.toSilent, h'.isClosed.trans h.isClosed, h'.isDrained.trans h.isDrained,
    h'.error.trans h.error, h'.closeTimer.trans h.closeTimer⟩

theorem Steady.of_eq (hstate : c'.state = c.state) (herror : c'.error = c.error)
    (htimers : c'.timers = c.timers) (hsilent : Silent c c') : Steady c c' :=
  ⟨hsilent, by rw [hstate], by rw [hstate], herror, by rw [htimers]⟩

theorem Rearm.get_close (r : Rearm) (t : TimerTable) : (r.apply t).get .close = t.get .close := by
  obtain ⟨updates, hclose⟩ := r
  induction updates generalizing t with
  | nil => rfl
  | cons u _ ih =>
    have hne : u.1 ≠ .close := hclose u mem_cons_self
    refine (ih _ fun v hv => hclose v (mem_cons_of_mem _ hv)).trans ?_
    exact Function.update_of_ne (Ne.symm hne) _ _

theorem steady_rearm (c : Connection) (r : Rearm) :
    Steady c { c with timers := r.apply c.timers } :=
  ⟨.of_eq rfl rfl, rfl, Iff.rfl, rfl, Rearm.get_close r c.timers⟩

theorem silent_notify (c : Connection) (notify : Bool) {event : Event}
    (hevent : ∀ reason, event ≠ .connectionLost reason) :
    Silent c { c with events := if notify then c.events ++ [event] else c.events } := by
  refine ⟨?_, Iff.rfl⟩
  intro reason hr
  split_ifs at hr
  · rcases mem_append.mp hr with hr | hr
    · exact hr
    · exact absurd (mem_singleton.mp hr).symm (hevent reason)
  · exact hr

/-- What the packet handlers can do before the result is looked at. -/
def Handled (c c' : Connection) : Prop :=
  Steady c c' ∨ PeerCloses c c'

theorem Handled.silent (h : Handled c c') : Silent c c' :=
  h.elim (·.toSilent) (·.toSilent)

theorem Handled.trans (h : Handled c c') (h' : Handled c' c'') : Handled c c'' := by
  rcases h' with h' | h'
  · rcases h with h | h
    · exact .inl (h.trans h')
    · exact .inr ⟨h.toSilent.trans h'.toSilent, h'.isClosed.trans h.isClosed,
        fun hdrained => h.undrained (h'.isDrained.mp hdrained), h'.error ▸ h.error⟩
  · exact .inr ⟨h.silent.trans h'.toSilent, h'.isClosed, h'.undrained, h'.error⟩

theorem steady_recover (c : Connection) (r : Recovered) : Steady c (c.recover r) :=
  .of_eq rfl rfl rfl
    ⟨(silent_notify c r.datagramsUnblocked (by simp)).lost, Iff.rfl⟩

theorem isClosed_errorState (e : ConnectionError) : (errorState e).isClosed = true := by
  unfold errorState
  split
  · rfl
  · split_ifs <;> rfl
  all_goals rfl

/-- `Q` is kept by all that the packets can do before their result is looked at. -/
structure PacketRule (packets : List PacketInput) (Q : Connection → Prop) : Prop where
  step : ∀ c streams, StreamStep packets c.streams streams → Q c → Q { c with streams }
  handled : ∀ {c c'}, Q c → Handled c c' → c'.streams = c.streams →
    (∀ event, .stream event ∈ c'.events → .stream event ∈ c.events) → Q c'

/-- `Q` is kept by all that is done to the timers, and when the connection closes. -/
structure ClosingRule (Q : Connection → Prop) : Prop where
  same : ∀ {c c'}, Q c → c'.state = c.state → c'.error = c.error → c'.events = c.events →
    c'.streams = c.streams → Q c'
  closed : ∀ {c c'}, Q c → c'.state.isClosed = true → c'.events = c.events →
    c'.streams = c.streams → Q c'

structure InputRule (packets : List PacketInput) (Q : Connection → Prop) : Prop
    extends PacketRule packets Q, ClosingRule Q

structure OutputRule (Q : Connection → Prop) : Prop extends ClosingRule Q where
  populate : ∀ c window datagramsUnblocked, Q c → Q (c.populatePacket window datagramsUnblocked)

/-- `Q` is about the streams and the events that they raised. -/
structure Local (Q : Connection → Prop) : Prop where
  keep : ∀ c c', c'.streams = c.streams →
    (∀ event, .stream event ∈ c'.events → .stream event ∈ c.events) → Q c → Q c'

theorem Local.same (h : Local Q) (hc : Q c) (hstreams : c'.streams = c.streams)
    (hevents : c'.events = c.events) : Q c' :=
  h.keep c c' hstreams (fun _ hmem => hevents ▸ hmem) hc

theorem Local.closing (h : Local Q) : ClosingRule Q :=
  ⟨fun hc _ _ hevents hstreams => h.same hc hstreams hevents,
    fun hc _ hevents hstreams => h.same hc hstreams hevents⟩

theorem Local.input (h : Local Q)
    (hstep : ∀ c streams, StreamStep packets c.streams streams → Q c → Q { c with streams }) :
    InputRule packets Q where
  toClosingRule := h.closing
  step := hstep
  handled hc _ hstreams hevents := h.keep _ _ hstreams hevents hc

namespace PacketRule

theorem aside (h : PacketRule packets Q) (hc : Q c) (hs : Handled c c')
    (hstreams : c'.streams = c.streams) (hevents : c'.events = c.events) : Q c' :=
  h.handled hc hs hstreams fun _ hmem => hevents ▸ hmem

theorem pending (h : PacketRule packets Q) (pending : Retransmits) (hc : Q c) :
    Q { c with pending } :=
  h.aside hc (.inl (.of_eq rfl rfl rfl (.of_eq rfl rfl))) rfl rfl

theorem rearm (h : PacketRule packets Q) (r : Rearm) (hc : Q c) :
    Q { c with timers := r.apply c.timers } :=
  h.aside hc (.inl (steady_rearm c r)) rfl rfl

theorem notify (h : PacketRule packets Q) (hc : Q c) (flag : Bool) {event : Event}
    (hlost : ∀ reason, event ≠ .connectionLost reason) (hevent : ∀ e, event ≠ .stream e) :
    Q { c with events := if flag then c.events ++ [event] else c.events } := by
  refine h.handled hc (.inl (.of_eq rfl rfl rfl (silent_notify c flag hlost))) rfl fun e hmem => ?_
  split_ifs at hmem
  · exact (mem_append.mp hmem).resolve_right
      fun hmem => hevent e (mem_singleton.mp hmem).symm
  · exact hmem

theorem foldl {α : Type} {f : StreamsState → α → StreamsState} (h : PacketRule packets Q)
    (hf : ∀ s x, StreamStep packets s (f s x)) (xs : List α) (hc : Q c) :
    Q { c with streams := xs.foldl f c.streams } := by
  induction xs generalizing c with
  | nil => exact hc
  | cons x _ ih => exact ih (h.step c _ (hf c.streams x) hc)

theorem recover (h : PacketRule packets Q) (r : Recovered) (hc : Q c) : Q (c.recover r) := by
  have hresets := h.foldl (f := resetAcked) (fun _ id => .resetAcked id) r.resetsAcked hc
  have hacked := h.foldl (f := receivedAckOf) (fun _ frame => .acked frame) r.acked hresets
  have hlost := h.foldl (f := retransmit) (fun _ frame => .lost frame) r.lost hacked
  exact h.notify (h.pending _ hlost) r.datagramsUnblocked (by simp) (by simp)

theorem processFrame (h : PacketRule packets Q) (zeroRtt : Bool) (payloadLen : Nat)
    {frame : Frame} (hframe : frame ∈ framesOf packets) (hc : Q c) :
    Q (c.processFrame zeroRtt payloadLen frame).2 := by
  cases frame with
  | stream =>
    simp only [Connection.processFrame]
    split
    · exact hc
    · rename_i hok
      exact h.pending _ (h.step c _ (.received hok) hc)
  | resetStream =>
    simp only [Connection.processFrame]
    split
    · exact hc
    · rename_i hok
      exact h.pending _ (h.step c _ (.receivedReset hok) hc)
  | maxStreamData =>
    simp only [Connection.processFrame]
    split
    · exact hc
    · rename_i hok
      exact h.step c _ (.maxStreamData hok) hc
  | maxStreams =>
    simp only [Connection.processFrame]
    split
    · exact hc
    · rename_i hok
      exact h.step c _ (.maxStreams hframe hok) hc
  | maxData bytes => exact h.step c _ (.maxData bytes) hc
  | stopSending id errorCode =>
    simp only [Connection.processFrame]
    split_ifs
    · exact hc
    · exact hc
    · exact h.step c _ (.stopSending id errorCode) hc
  | ack outcome =>
    rcases outcome with _ | recovered
    · exact hc
    · exact h.recover recovered hc
  | crypto _ error =>
    cases zeroRtt with
    | true => exact hc
    | false =>
      rcases error with _ | error
      · exact h.notify hc _ (by simp) (by simp)
      · exact hc
  | close | streamDataBlocked | streamsBlocked =>
    simp only [Connection.processFrame]
    split_ifs <;> exact hc
  | retireConnectionId _ outcome =>
    rcases outcome with _ | _
    · exact hc
    · refine h.aside hc (.inl (.of_eq rfl rfl rfl ⟨fun _ h => h, ?_⟩)) rfl rfl
      simp [Connection.processFrame]
  | datagram received =>
    rcases received with _ | notify
    · exact hc
    · exact h.notify hc _ (by simp) (by simp)
  | other error => rcases error with _ | _ <;> exact hc

theorem processFrames (h : PacketRule packets Q) (zeroRtt : Bool) (payloadLen : Nat)
    {frames : List Frame} (hframes : frames ⊆ framesOf packets) (hc : Q c) :
    Q (c.processFrames zeroRtt payloadLen frames).2 := by
  induction frames generalizing c with
  | nil => exact hc
  | cons _ _ ih =>
    rw [cons_subset] at hframes
    have hframe := h.processFrame zeroRtt payloadLen hframes.1 hc
    unfold processFrames
    split <;> (rename_i heq; rw [heq] at hframe)
    · exact hframe
    · exact ih hframes.2 hframe

theorem processPayload (h : PacketRule packets Q) {p : Decrypted}
    (hframes : p.frames ⊆ framesOf packets) (hc : Q c) : Q (c.processPayload p).2 := by
  have hprocessed := h.processFrames (p.kind == .zeroRtt) p.payloadLen hframes hc
  unfold Connection.processPayload
  split <;> (rename_i heq; rw [heq] at hprocessed)
  · exact hprocessed
  · split
    · exact hprocessed
    · have hrearmed := h.rearm p.processed hprocessed
      split
      · exact h.aside hrearmed (.inr ⟨.of_eq rfl rfl, rfl, by simp, by simp⟩) rfl rfl
      · exact h.pending _ hrearmed

theorem processEarlyPayload (h : PacketRule packets Q) (p : Decrypted) (hc : Q c) :
    Q (c.processEarlyPayload p).2 := by
  have hframes : Q (c.processEarlyFrames p.frames).2 := by
    generalize p.frames = frames
    induction frames generalizing c with
    | nil => exact hc
    | cons frame _ ih =>
      cases frame with
      | crypto _ error =>
        rcases error with _ | error
        · exact ih (h.notify hc _ (by simp) (by simp))
        · exact hc
      | ack outcome =>
        rcases outcome with _ | recovered
        · exact hc
        · exact ih (h.recover recovered hc)
      | other error =>
        rcases error with _ | _
        · exact ih hc
        · exact hc
      | close =>
        refine h.aside hc (.inr ⟨.of_eq rfl rfl, rfl, ?_, ?_⟩) rfl rfl <;>
          simp [processEarlyFrames]
      | stream | maxData | maxStreamData | maxStreams | resetStream | streamDataBlocked
      | streamsBlocked | stopSending | retireConnectionId | datagram => exact hc
  unfold Connection.processEarlyPayload
  split <;> (rename_i heq; rw [heq] at hframes)
  · exact hframes
  · exact hframes
  · split
    · exact hframes
    · exact h.rearm p.processed hframes

theorem processDecryptedPacket (h : PacketRule packets Q) {p : Decrypted}
    (hp : .decrypted p ∈ packets) (hc : Q c) : Q (c.processDecryptedPacket p).2 := by
  have hframes : p.frames ⊆ framesOf packets := fun frame hframe =>
    mem_flatMap.mpr ⟨.decrypted p, hp, hframe⟩
  have hpayload := h.processPayload hframes hc
  have hearly := h.processEarlyPayload p hc
  unfold Connection.processDecryptedPacket
  split
  · split
    · exact hpayload
    · exact hpayload
    · exact hearly
    · exact hearly
    · exact hc
    · exact hc
  · rename_i hstate
    split_ifs
    · exact hc
    · refine h.aside hc (.inl ⟨.of_eq rfl rfl, ?_, ?_, rfl, rfl⟩) rfl rfl <;>
        simp [hstate, State.isClosed]
    · exact hc
  · exact hc
  · exact hc
  · split
    · exact hc
    · split <;> (rename_i c' heq; rw [heq] at hearly)
      · exact hearly
      · split_ifs with hopen
        · exact hearly
        · simp only [Bool.or_eq_true, not_or, Bool.not_eq_true] at hopen
          refine h.handled hearly (.inl ⟨⟨?_, Iff.rfl⟩, hopen.1.symm, ?_, rfl, rfl⟩) rfl ?_
          · simp
          · constructor
            · intro hdrained
              cases hdrained
            · intro hdrained
              rw [hdrained] at hopen
              cases hopen.1
          · simp
    · split <;> (rename_i heq; rw [heq] at hearly)
      · exact hearly
      · split
        · exact hearly
        · exact hearly
        · rename_i limits newCids hparams
          have hlimits : limits ∈ paramsOf packets :=
            mem_flatMap.mpr ⟨.decrypted p, hp, by simp [hparams]⟩
          refine h.aside (h.step _ _ (.setParams limits hlimits) hearly)
            (.inl (.of_eq rfl rfl rfl ⟨fun _ h => h, ?_⟩)) rfl rfl
          simp
    · exact hpayload
    · exact hc
    · exact hc

theorem decryptedResult (h : PacketRule packets Q) {input : PacketInput} (hinput : input ∈ packets)
    {result : Except ConnectionError Unit} (hresult : c.decryptedResult input = some (result, c'))
    (hc : Q c) : Q c' := by
  cases input with
  | discarded => cases hresult
  | statelessReset | illegal | integrityLimit =>
    cases hresult
    exact hc
  | decrypted p =>
    simp only [Connection.decryptedResult] at hresult
    split_ifs at hresult
    · have hpacket := h.processDecryptedPacket hinput hc
      split at hresult <;> (rename_i heq; rw [heq] at hpacket; cases hresult; exact hpacket)
    · have hpacket := h.processDecryptedPacket hinput (h.rearm p.authenticated hc)
      split at hresult <;> (rename_i heq; rw [heq] at hpacket; cases hresult; exact hpacket)

end PacketRule

namespace InputRule

theorem handlePacket (h : InputRule packets Q) (now : Instant) (pto : Nat) (samePath : Bool)
    {input : PacketInput} (hinput : input ∈ packets) (hc : Q c) :
    Q (c.handlePacket now pto samePath input) := by
  unfold Connection.handlePacket
  split
  · exact hc
  · rename_i result c' hresult
    have hhandled := h.decryptedResult hinput hresult hc
    rcases result with e | ⟨⟩
    · have herror : Q { c' with error := some e, state := errorState e } :=
        h.closed hhandled (isClosed_errorState e) rfl rfl
      dsimp only
      split_ifs <;> exact h.same herror rfl rfl rfl rfl
    · dsimp only
      split_ifs <;> exact h.same hhandled rfl rfl rfl rfl

theorem handleDatagram (h : InputRule packets Q) {d : Connection.Datagram}
    (hd : d.packets ⊆ packets) (hc : Q c) : Q (c.handleDatagram d) := by
  refine h.rearm d.handled ?_
  generalize d.packets = inputs at hd
  induction inputs generalizing c with
  | nil => exact hc
  | cons _ _ ih =>
    rw [cons_subset] at hd
    exact ih (h.handlePacket d.now d.pto d.samePath hd.1 hc) hd.2

theorem accept {incoming : Incoming} (h : InputRule (packetsOf incoming) Q) {e e' : Endpoint}
    {config : TransportConfig} {ch : Nat} {conn : Connection}
    (haccept : e.accept config incoming = (.ok (ch, conn), e')) (hnew : Q (.new config)) :
    Q conn := by
  cases incoming with
  | refused => cases haccept
  | initial _ first _ buffered =>
    have hfold : ∀ ds : List Connection.Datagram, ds ⊆ buffered → ∀ c, Q c →
        Q (ds.foldl Connection.handleDatagram c) := by
      intro ds
      induction ds with
      | nil => exact fun _ _ hc => hc
      | cons d _ ih =>
        intro hds c hc
        rw [cons_subset] at hds
        refine ih hds.2 _ (h.handleDatagram (fun p hp => mem_cons_of_mem _ ?_) hc)
        exact mem_append_right _ (mem_flatMap.mpr ⟨d, hds.1, hp⟩)
    simp only [Endpoint.accept] at haccept
    split at haccept
    · rename_i conn' hhandled
      cases haccept
      refine hfold buffered (List.Subset.refl _) conn' ?_
      have hpacket := h.processDecryptedPacket mem_cons_self (h.rearm first.authenticated hnew)
      unfold handleFirstPacket at hhandled
      split at hhandled
      · cases hhandled
      · rename_i heq
        rw [heq] at hpacket
        cases hhandled
        exact h.handleDatagram
          (fun p hp => mem_cons_of_mem _ (mem_append_left _ hp)) hpacket
    · cases haccept

theorem handleTimeout (h : InputRule packets Q) (now : Instant) (input : Connection.TimeoutInput)
    (hc : Q c) : Q (c.handleTimeout now input) := by
  have htimer : ∀ c timer, Q c → Q (handleTimer now input c timer) := by
    intro c timer hc
    unfold handleTimer
    split_ifs
    · cases timer with
      | lossDetection =>
        have hstopped : Q { c with timers := c.timers.stop .lossDetection } :=
          h.same hc rfl rfl rfl rfl
        exact h.rearm input.lossDetection.2 (h.recover input.lossDetection.1 hstopped)
      | pushNewCid =>
        dsimp only
        split_ifs <;> exact h.same hc rfl rfl rfl rfl
      | close | idle => exact h.closed hc rfl rfl rfl
      | _ => exact h.same hc rfl rfl rfl rfl
    · exact hc
  unfold Connection.handleTimeout
  generalize Timer.values = timers
  induction timers generalizing c with
  | nil => exact hc
  | cons timer _ ih => exact ih (htimer c timer hc)

end InputRule

theorem ClosingRule.closeInner (h : ClosingRule Q) (now : Instant) (pto : Nat) (hc : Q c) :
    Q (c.closeInner now pto) := by
  unfold Connection.closeInner
  split_ifs
  · exact hc
  · exact h.closed hc rfl rfl rfl

namespace OutputRule

theorem transmitLoop (h : OutputRule Q) (now : Instant) (closing sent : Bool)
    (steps : List Connection.TransmitStep) (hc : Q c) :
    Q (transmitLoop now closing c sent steps).2 := by
  induction steps generalizing c sent with
  | nil => exact hc
  | cons step _ ih =>
    cases step with
    | packet window _ datagramsUnblocked =>
      simp only [transmitLoop]
      split_ifs
      · exact h.same hc rfl rfl rfl rfl
      · exact ih true (h.same hc rfl rfl rfl rfl)
      · refine ih true ?_
        rcases window with _ | window
        · exact h.same hc rfl rfl rfl rfl
        · exact h.same (h.populate c window datagramsUnblocked hc) rfl rfl rfl rfl
    | pacing => exact h.same hc rfl rfl rfl rfl
    | confidentialityClose pto => exact ih sent (h.closeInner now pto hc)
    | confidentialityKill => exact h.closed hc rfl rfl rfl

theorem pollTransmit (h : OutputRule Q) (input : Connection.TransmitInput) (hc : Q c) :
    Q (c.pollTransmit input).2 := by
  have hloop := h.transmitLoop input.now c.state.isClosed false input.steps hc
  unfold Connection.pollTransmit
  split_ifs
  · exact hc
  · exact hc
  · dsimp only
    split_ifs
    · exact hloop
    · split
      · exact h.same hloop rfl rfl rfl rfl
      · exact hloop
    · split <;> exact hloop

end OutputRule

end Quac.ConnectionSteps
