import Quac.EarlyData
import Quac.SendSteps

/-!
The streams of one connection from its start on.  Besides what `StreamParty` has there
are the handshake with its early data, reads out of order and priorities; any frame may
be acknowledged or lost, whether it was sent or not.
-/

namespace Quac.StreamSession

open EarlyData Function Identifiers Lib.Transition RecvHalf RecvSteps SendHalf SendPath SendSteps
open StreamAccess StreamAccounts
open StreamParty hiding State step system
open StreamTransmit Streams StreamsState TransmitShape

inductive Operation
  | call (c : Call)
  | readUnordered (id : StreamId) (maxLengths : List Nat)
  | receivedReset (id : StreamId)
  | setPriority (id : StreamId) (priority : Int)
  | receive (payloadLen : Nat) (frame : StreamsFrame)
  | transmit (space : PacketSpace)
  | acked (frame : StreamsFrame)
  | lost (frame : StreamsFrame)
  | setParams (params : StreamsState.PeerLimits)
  | retransmitAllFor0rtt
  | zeroRttRejected
deriving DecidableEq

/-- A frame that is refused closes the connection, and a panic ends it. -/
def step (p : Party) : Operation → Option Party
  | .call c => some (p.call c).2
  | .readUnordered id maxLengths =>
    let (_, streams, pending) := readEither p.streams p.pending id false maxLengths
    some ⟨streams, pending⟩
  | .receivedReset id =>
    let (_, streams, pending) := receivedResetCode p.streams p.pending id
    some ⟨streams, pending⟩
  | .setPriority id priority => some { p with streams := (setPriority p.streams id priority).2 }
  | .receive payloadLen frame =>
    match p.receive payloadLen frame with
    | .ok p => some p
    | .error _ => none
  | .transmit space =>
    if space.limits.isPerm p.pending.maxStreamData then (p.transmit space).map Prod.snd else none
  | .acked frame => some (p.acked frame)
  | .lost frame => some (p.lost frame)
  | .setParams params => some { p with streams := p.streams.setParams params }
  | .retransmitAllFor0rtt => some { p with streams := p.streams.retransmitAllFor0rtt }
  -- The frames queued so far are discarded, too.
  | .zeroRttRejected => p.streams.zeroRttRejected.map fun streams => ⟨streams, .empty⟩

def system : System Party Operation where
  initial p := ∃ side maxRemoteUni maxRemoteBi sendWindow receiveWindow streamReceiveWindow,
    p = ⟨.new side maxRemoteUni maxRemoteBi sendWindow receiveWindow streamReceiveWindow, .empty⟩
  step := step

/-- A client that admits one bidirectional stream, before it knows its peer's parameters. -/
def client : Party :=
  ⟨.new .client 0 1 100 100 100, .empty⟩

def Operation.spares : Operation → Bool
  | .call (.read _ _) | .call (.stop _ _) | .call (.setReceiveWindow _) => true
  | .call (.setMaxConcurrentStreams _ _) | .readUnordered _ _ | .receivedReset _ => true
  | .receive _ (.stream _) | .receive _ (.resetStream _ _ _) => true
  | .receive _ (.streamsBlocked _ _) => true
  | .acked (.stream _) | .acked (.resetStream _ _ _) | .lost (.stream _) => false
  | .acked _ | .lost _ => true
  | _ => false

inductive Effect (s : StreamsState) : Operation → StreamsState → Prop
  | kept (op : Operation) (s' : StreamsState) (hop : op.spares = true) (h : Kept s s') :
      Effect s op s'
  | accept (dir : Dir) : Effect s (.call (.acceptStream dir)) (acceptStream s dir).2
  | openStream (dir : Dir) : Effect s (.call (.openStream dir)) (openStream s false dir).2
  | write (id : StreamId) (data : Bytes) :
      Effect s (.call (.write id data)) (writeStream s false id data).2
  | finish (id : StreamId) : Effect s (.call (.finish id)) (finishStream s id).2
  | reset (pending : Retransmits) (id : StreamId) (errorCode : Nat) :
      Effect s (.call (.reset id errorCode)) (resetStream s pending id errorCode).2.1
  | poll : Effect s (.call .poll) s.poll.2
  | sendWindow (sendWindow : Nat) :
      Effect s (.call (.setSendWindow sendWindow)) (s.setSendWindow sendWindow)
  | setPriority (id : StreamId) (priority : Int) :
      Effect s (.setPriority id priority) (setPriority s id priority).2
  | stopSending (payloadLen : Nat) (id : StreamId) (errorCode : Nat) :
      Effect s (.receive payloadLen (.stopSending id errorCode))
        (s.receivedStopSending id errorCode)
  | maxData (payloadLen limit : Nat) :
      Effect s (.receive payloadLen (.maxData limit)) (s.receivedMaxData limit)
  | maxStreamData (payloadLen : Nat) (id : StreamId) (limit : Nat) (s' : StreamsState)
      (h : s.receivedMaxStreamData id limit = .ok s') :
      Effect s (.receive payloadLen (.maxStreamData id limit)) s'
  | maxStreams (payloadLen : Nat) (dir : Dir) (count : Nat) (s' : StreamsState)
      (h : s.receivedMaxStreams dir count = .ok s') :
      Effect s (.receive payloadLen (.maxStreams dir count)) s'
  | transmit (space : PacketSpace) (w : Writer) (fuel : Nat) (h : Kept s w.streams) :
      Effect s (.transmit space) (writeStreamFrames space.maxSize space.fair fuel w).2.streams
  | ackOf (frame : StreamFrame) :
      Effect s (.acked (.stream frame)) (s.receivedAckOf (streamMeta frame))
  | resetAcked (id : StreamId) (errorCode finalOffset : Nat) :
      Effect s (.acked (.resetStream id errorCode finalOffset)) (s.resetAcked id)
  | retransmit (frame : StreamFrame) :
      Effect s (.lost (.stream frame)) (s.retransmit (streamMeta frame))
  | setParams (params : StreamsState.PeerLimits) : Effect s (.setParams params) (s.setParams params)
  | rewound : Effect s .retransmitAllFor0rtt s.retransmitAllFor0rtt
  | rejected (s' : StreamsState) (h : s.zeroRttRejected = some s') : Effect s .zeroRttRejected s'

section Seats

variable {s s' s'' : StreamsState} {id : StreamId}

structure Seats (s s' : StreamsState) : Prop where
  side : s'.side = s.side
  next : s'.next = s.next
  maxRemote : ∀ dir, s.maxRemote dir ≤ s'.maxRemote dir
  send : ∀ id, s'.send id ≠ none → s.send id ≠ none ∨ Admitted s s' id

theorem Seats.refl (s : StreamsState) : Seats s s :=
  ⟨rfl, rfl, fun _ => le_rfl, fun _ => .inl⟩

theorem Seats.trans (h : Seats s s') (h' : Seats s' s'') : Seats s s'' where
  side := h'.side.trans h.side
  next := h'.next.trans h.next
  maxRemote dir := le_trans (h.maxRemote dir) (h'.maxRemote dir)
  send id hid := by
    rcases h'.send id hid with hid | ⟨hside, hle, hlt⟩
    · rcases h.send id hid with hid | ⟨hside, hle, hlt⟩
      · exact .inl hid
      · exact .inr ⟨hside, hle, lt_of_lt_of_le hlt (h'.maxRemote _)⟩
    · refine .inr ⟨?_, le_trans (h.maxRemote _) hle, hlt⟩
      rw [← h.side]
      exact hside

theorem seats_of_kept (h : Kept s s') : Seats s s' := by
  refine { h with send := fun id hid => ?_ }
  rcases h.send id with heq | ⟨hadmitted, -⟩
  · rw [heq] at hid
    exact .inl hid
  · exact .inr hadmitted

theorem send_ne_none {half : Send} (h : s.getSend id = some half) : s.send id ≠ none := by
  intro hnone
  simp [getSend, hnone] at h

theorem seats_setSend (h : s.send id ≠ none) (half : Send) : Seats s (s.setSend id half) := by
  refine ⟨rfl, rfl, fun _ => le_rfl, fun j hj => .inl ?_⟩
  rcases eq_or_ne j id with rfl | hne
  · exact h
  · simpa only [setSend, update_of_ne hne] using hj

theorem seats_removeSend (s : StreamsState) (id : StreamId) : Seats s (s.removeSend id) := by
  refine ⟨rfl, rfl, fun _ => le_rfl, fun j hj => .inl ?_⟩
  rcases eq_or_ne j id with rfl | hne
  · simp [removeSend] at hj
  · simpa only [removeSend, update_of_ne hne] using hj

theorem seats_freed (s : StreamsState) (id : StreamId) :
    Seats s ((s.removeSend id).streamFreed id .send) := by
  obtain ⟨t, hkept, heq⟩ := streamFreed_send (s.removeSend id) id
  have hseats := (seats_removeSend s id).trans (seats_of_kept hkept)
  rw [heq]
  exact { hseats with }

theorem Seats.of_sendStep {scope : Scope} (h : SendStep scope s s') : Seats s s' := by
  have hsame := Seats.refl s
  cases h with
  | calm hget => exact seats_setSend (send_ne_none hget) _
  | filled hget =>
    have hset := fun half' => seats_setSend (send_ne_none hget) half'
    exact { hset _ with }
  | framed _ _ hsend =>
    have hset := fun half' => seats_setSend (send_ne_none (getSend_of_send hsend)) half'
    exact { hset _ with }
  | announced id => exact seats_of_kept (kept_onStreamFrame s false id)
  | _ => exact { hsame with }

theorem Seats.of_steps (h : Steps .any s s') : Seats s s' := by
  induction h with
  | refl => exact .refl s
  | tail _ hstep ih => exact ih.trans (.of_sendStep hstep)

theorem Seats.of_acks (h : Acks s s') : Seats s s' := by
  cases h with
  | refl => exact .refl s
  | acked hsend =>
    have hset := fun half => seats_setSend (send_ne_none (getSend_of_send hsend)) half
    exact { hset _ with }
  | freed id unackedData =>
    have hfreed := seats_freed { s with unackedData } id
    exact { hfreed with }
  | finished id unackedData ht =>
    have hfreed := ht ▸ seats_freed { s with unackedData } id
    exact { hfreed with }

theorem seats_setParams (s : StreamsState) (params : StreamsState.PeerLimits) :
    Seats s (s.setParams params) := by
  refine ⟨rfl, rfl, fun _ => le_rfl, fun id hid => .inl ?_⟩
  intro hnone
  apply hid
  rcases setParams_send s params id with heq | ⟨-, heq⟩ <;> rw [heq, hnone]
  rfl

/-- Only `open` brings streams of our own, and a rejection of early data takes them. -/
theorem Effect.seats {op : Operation} (h : Effect s op s')
    (hopen : ∀ dir, op ≠ .call (.openStream dir)) (hrejected : op ≠ .zeroRttRejected) :
    Seats s s' := by
  cases h with
  | kept _ _ _ h => exact seats_of_kept h
  | accept dir =>
    have hkept := seats_of_kept (kept_acceptStream s dir)
    exact { hkept with }
  | openStream dir => exact absurd rfl (hopen dir)
  | write _ data => exact .of_steps (steps_writeStream trivial trivial s false data)
  | finish => exact .of_steps (steps_finishStream trivial trivial)
  | reset pending _ errorCode => exact .of_steps (steps_resetStream trivial pending errorCode)
  | poll =>
    obtain ⟨t, _, _, hsteps, heq⟩ := steps_poll .any trivial s
    have hseats := Seats.of_steps hsteps
    rw [heq]
    exact { hseats with }
  | sendWindow | maxData => exact ⟨rfl, rfl, fun _ => le_rfl, fun _ => .inl⟩
  | setPriority id priority => exact .of_steps (steps_setPriority s id priority)
  | stopSending _ id errorCode => exact .of_steps (steps_receivedStopSending s id errorCode)
  | maxStreamData _ _ _ _ h => exact .of_steps (steps_receivedMaxStreamData trivial h)
  | maxStreams _ _ _ _ h =>
    unfold receivedMaxStreams at h
    split_ifs at h <;> cases h <;> exact ⟨rfl, rfl, fun _ => le_rfl, fun _ => .inl⟩
  | transmit _ _ _ hkept =>
    exact (seats_of_kept hkept).trans (.of_steps (steps_writeStreamFrames trivial _ _ _ _))
  | ackOf => exact .of_acks (acks_receivedAckOf s _)
  | resetAcked id => exact .of_acks (acks_resetAcked s id)
  | retransmit => exact .of_steps (steps_retransmit trivial s trivial)
  | setParams params => exact seats_setParams s params
  | rewound => exact .of_steps (steps_retransmitAllFor0rtt trivial (fun _ => trivial) s)
  | rejected => exact absurd rfl hrejected

end Seats

section Seated

variable {s s' : StreamsState} {id : StreamId}

/-- Sending halves exist of streams that we opened, and that the peer may open. -/
structure Seated (s : StreamsState) : Prop where
  ours : ∀ id, id.initiator = s.side → s.send id ≠ none → Own s id
  theirs : ∀ id, id.initiator ≠ s.side → s.send id ≠ none → id.index < s.maxRemote id.dir

theorem Seats.seated (h : Seats s s') (hs : Seated s) : Seated s' where
  ours id hside hid := by
    rw [h.side] at hside
    refine ⟨hside.trans h.side.symm, ?_⟩
    rcases h.send id hid with hid | ⟨hnot, -⟩
    · rw [h.next]
      exact (hs.ours id hside hid).2
    · exact absurd hside hnot
  theirs id hside hid := by
    rw [h.side] at hside
    rcases h.send id hid with hid | ⟨-, -, hlt⟩
    · exact lt_of_lt_of_le (hs.theirs id hside hid) (h.maxRemote _)
    · exact hlt

theorem seated_openStream (hs : Seated s) (dir : Dir) : Seated (openStream s false dir).2 := by
  have hopens := opens s dir
  generalize openStream s false dir = r at hopens ⊢
  cases hopens with
  | refused => exact ⟨hs.ours, hs.theirs⟩
  | opened id hid =>
    refine ⟨fun j hj hne => ⟨hj, ?_⟩, fun j hj hne => ?_⟩
    · rcases eq_or_ne j id with rfl | hji
      · dsimp only
        rw [hid, update_self]
        exact Nat.lt_succ_self _
      · dsimp only at hne
        rw [update_of_ne hji] at hne
        exact lt_of_lt_of_le (hs.ours j hj hne).2 (Accounts.le_update_add s.next dir 1 _)
    · rcases eq_or_ne j id with rfl | hji
      · rw [hid] at hj
        exact absurd rfl hj
      · dsimp only at hne
        rw [update_of_ne hji] at hne
        exact hs.theirs j hj hne

theorem Seated.send_next (hs : Seated s) (dir : Dir) : s.send ⟨s.side, dir, s.next dir⟩ = none := by
  by_contra hsome
  exact lt_irrefl _ (hs.ours _ rfl hsome).2

theorem seated_rejected (hs : Seated s) : Seated (rejected s) where
  ours id hside hid := by
    simp only [rejected] at hid
    split_ifs at hid with hown
    · exact absurd rfl hid
    · exact absurd (hs.ours id hside hid) hown
  theirs id hside hid := by
    simp only [rejected] at hid
    split_ifs at hid with hown
    · exact absurd rfl hid
    · exact hs.theirs id hside hid

theorem Effect.seated {op : Operation} (h : Effect s op s') (hs : Seated s) : Seated s' := by
  by_cases hopen : ∃ dir, op = .call (.openStream dir)
  · obtain ⟨dir, rfl⟩ := hopen
    cases h with
    | kept _ _ hop => cases hop
    | openStream => exact seated_openStream hs dir
  · by_cases hrejected : op = .zeroRttRejected
    · subst hrejected
      cases h with
      | kept _ _ hop => cases hop
      | rejected _ h =>
        rw [(zeroRttRejected_eq_some_iff.mp h).2]
        exact seated_rejected hs
    · exact (h.seats (fun dir hdir => hopen ⟨dir, hdir⟩) hrejected).seated hs

end Seated

section Initial

variable (side : Side)
  (maxRemoteUni maxRemoteBi sendWindow receiveWindow streamReceiveWindow : Nat)

theorem seated_new : Seated (new side maxRemoteUni maxRemoteBi sendWindow
    receiveWindow streamReceiveWindow) := by
  obtain ⟨_, _, _, hrest⟩ := new_rest side maxRemoteUni maxRemoteBi sendWindow receiveWindow
    streamReceiveWindow
  refine ⟨fun id hid hne => ?_, fun id hid hne => ?_⟩ <;> rw [send_new] at hne <;>
    split_ifs at hne with hpeer
  · rw [hrest, hpeer.1] at hid
    cases side <;> cases hid
  · exact absurd rfl hne
  · rw [hpeer.2.1, hrest]
    exact hpeer.2.2
  · exact absurd rfl hne

end Initial

theorem call_effect (p : Party) (c : Call) : Effect p.streams (.call c) (p.call c).2.streams := by
  cases c with
  | openStream dir => exact .openStream dir
  | acceptStream dir => exact .accept dir
  | write id data => exact .write id data
  | finish id => exact .finish id
  | reset id errorCode => exact .reset p.pending id errorCode
  | read => exact .kept _ _ rfl (.of_absorbs (absorbs_readStream _ _ _ _))
  | stop => exact .kept _ _ rfl (.of_absorbs (absorbs_stopStream _ _ _ _))
  | poll => exact .poll
  | setReceiveWindow => exact .kept _ _ rfl (kept_setReceiveWindow _ _)
  | setSendWindow sendWindow => exact .sendWindow sendWindow
  | setMaxConcurrentStreams => exact .kept _ _ rfl (kept_setMaxConcurrent _ _ _)

theorem receive_effect {p p' : Party} {payloadLen : Nat} {frame : StreamsFrame}
    (h : p.receive payloadLen frame = .ok p') :
    Effect p.streams (.receive payloadLen frame) p'.streams := by
  have haccepts := (Party.receive_accepts h).1
  generalize p'.streams = s' at haccepts ⊢
  cases haccepts with
  | stream _ hr => exact .kept _ _ rfl (.of_absorbs (absorbs_received hr))
  | resetStream _ _ _ hr => exact .kept _ _ rfl (.of_absorbs (absorbs_receivedReset hr))
  | stopSending id errorCode => exact .stopSending payloadLen id errorCode
  | maxData limit => exact .maxData payloadLen limit
  | maxStreamData id limit hr => exact .maxStreamData payloadLen id limit s' hr
  | maxStreams dir count hr => exact .maxStreams payloadLen dir count s' hr
  | streamsBlocked => exact .kept _ _ rfl (.refl _)

theorem step_effect {p p' : Party} {op : Operation} (h : step p op = some p') :
    Effect p.streams op p'.streams := by
  cases op with
  | call c =>
    cases h
    exact call_effect p c
  | readUnordered =>
    cases h
    exact .kept _ _ rfl (.of_absorbs (absorbs_readEither _ _ _ _ _))
  | receivedReset =>
    cases h
    exact .kept _ _ rfl (.of_absorbs (absorbs_receivedResetCode _ _ _))
  | setPriority id priority =>
    cases h
    exact .setPriority id priority
  | receive =>
    simp only [step] at h
    split at h
    · rename_i hreceive
      cases h
      exact receive_effect hreceive
    · cases h
  | transmit space =>
    simp only [step] at h
    split_ifs at h
    obtain ⟨⟨_, t⟩, htransmit, rfl⟩ := Option.map_eq_some_iff.mp h
    obtain ⟨w, fuel, _, hcontrol, rfl, -, -, rfl⟩ :=
      (announced_rule _).transmit_eq_some ⟨rfl, fun _ h => h⟩ htransmit
    refine .transmit space w fuel ?_
    have hsame := Kept.refl p.streams
    rw [hcontrol.streams]
    exact { hsame with }
  | acked frame =>
    cases h
    cases frame with
    | stream frame => exact .ackOf frame
    | resetStream id errorCode finalOffset => exact .resetAcked id errorCode finalOffset
    | _ => exact .kept _ _ rfl (.refl _)
  | lost frame =>
    cases h
    cases frame with
    | stream frame => exact .retransmit frame
    | _ => exact .kept _ _ rfl (.refl _)
  | setParams params =>
    cases h
    exact .setParams params
  | retransmitAllFor0rtt =>
    cases h
    exact .rewound
  | zeroRttRejected =>
    obtain ⟨streams, hrejected, rfl⟩ := Option.map_eq_some_iff.mp h
    exact .rejected streams hrejected

end Quac.StreamSession
