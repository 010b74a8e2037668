import Quac.Identifiers
import Quac.Lib.Transition

/-!
ACK_FREQUENCY frames, by which an endpoint asks its peer to delay acknowledgements: the delay
it asks for, and what becomes of the request when its packet is lost.

Durations are in nanoseconds.
-/

namespace Quac.AckFrequency

open Identifiers Lib.Transition Option

structure AckFrequencyConfig where
  ackElicitingThreshold : Nat
  maxAckDelay : Option Nat
  reorderingThreshold : Nat

/-- The transport parameters of the peer that `TransportParameters::read` checks. -/
structure TransportParameters where
  maxUdpPayloadSize : Nat
  initialMaxStreamsBidi : Nat
  initialMaxStreamsUni : Nat
  ackDelayExponent : Nat
  /-- In milliseconds. -/
  maxAckDelay : Nat
  activeConnectionIdLimit : Nat
  /-- In microseconds. -/
  minAckDelay : Option Nat
  /-- Whether there is one of the four that only a server sends. -/
  serverOnly : Bool
  /-- Whether there is a preferred address with an empty connection ID. -/
  preferredCidEmpty : Bool

/-- The semantic validation with which `TransportParameters::read` ends. -/
def TransportParameters.accepted (params : TransportParameters) (side : Side) : Bool :=
  !(20 < params.ackDelayExponent || 2 ^ 14 ≤ params.maxAckDelay ||
    params.activeConnectionIdLimit < 2 || params.maxUdpPayloadSize < 1200 ||
    maxStreamCount < params.initialMaxStreamsBidi || maxStreamCount < params.initialMaxStreamsUni ||
    params.minAckDelay.any (params.maxAckDelay * 1000 < ·) ||
    (side = .server && params.serverOnly) || params.preferredCidEmpty)

def minAutomaticAckDelay : Nat := 25_000_000

/-- The half of the state that concerns the frames sent. -/
structure AckFrequencyState where
  inFlightAckFrequencyFrame : Option (Nat × Nat)
  nextOutgoingSequenceNumber : Nat
  peerMaxAckDelay : Nat

/-- `Ord::clamp`, which panics where the bounds are the wrong way round. -/
def clamp (x lower upper : Nat) : Option Nat :=
  if lower ≤ upper then some (max lower (min x upper)) else none

def minAckDelay (params : TransportParameters) : Nat :=
  params.minAckDelay.getD 0 * 1000

def maxRttError : Float32 := 0.2

/-- `Duration::as_secs_f32`. -/
def asSecsF32 (duration : Nat) : Float32 :=
  .ofNat (duration / 10 ^ 9) + .ofNat (duration % 10 ^ 9) / .ofNat (10 ^ 9)

/-- A request is made anew when the delay differs by more than `MAX_RTT_ERROR`. -/
def exceeds (desired current : Nat) : Bool :=
  maxRttError < (asSecsF32 desired / asSecsF32 current - 1).abs

namespace AckFrequencyState

/-- The result is `none` where `clamp` panics. -/
def candidateMaxAckDelay (s : AckFrequencyState) (rtt : Nat) (config : AckFrequencyConfig)
    (params : TransportParameters) : Option Nat :=
  clamp (config.maxAckDelay.getD s.peerMaxAckDelay) (minAckDelay params)
    (max rtt minAutomaticAckDelay)

def current (s : AckFrequencyState) : Nat :=
  (s.inFlightAckFrequencyFrame.map (·.2)).getD s.peerMaxAckDelay

def shouldSendAckFrequency (s : AckFrequencyState) (rtt : Nat) (config : AckFrequencyConfig)
    (params : TransportParameters) : Option Bool :=
  if s.nextOutgoingSequenceNumber = 0 then some true
  else (s.candidateMaxAckDelay rtt config params).map (exceeds · s.current)

def ackFrequencySent (s : AckFrequencyState) (pn requestedMaxAckDelay : Nat) : AckFrequencyState :=
  { s with inFlightAckFrequencyFrame := some (pn, requestedMaxAckDelay) }

def onAcked (s : AckFrequencyState) (pn : Nat) : AckFrequencyState :=
  match s.inFlightAckFrequencyFrame with
  | some (number, requestedMaxAckDelay) =>
    if number = pn then
      { s with inFlightAckFrequencyFrame := none, peerMaxAckDelay := requestedMaxAckDelay }
    else s
  | none => s

end AckFrequencyState

/-- The delay to ask for is found, within its bounds, exactly when the peer can acknowledge
within the round trip time or 25 ms. -/
theorem candidateMaxAckDelay_iff (s : AckFrequencyState) (rtt : Nat) (config : AckFrequencyConfig)
    (params : TransportParameters) :
    (∃ delay, s.candidateMaxAckDelay rtt config params = some delay ∧
      minAckDelay params ≤ delay ∧ delay ≤ max rtt minAutomaticAckDelay) ↔
    minAckDelay params ≤ max rtt minAutomaticAckDelay := by
  constructor
  · rintro ⟨delay, -, hlower, hupper⟩
    exact le_trans hlower hupper
  · intro hle
    exact ⟨_, if_pos hle, Nat.le_max_left _ _, Nat.max_le.mpr ⟨hle, Nat.min_le_right _ _⟩⟩

/-- A server that takes 100 ms to acknowledge, on a path with a round trip time of 10 ms: its
parameters are accepted, and the client panics. -/
theorem candidateMaxAckDelay_panics :
    ∃ params : TransportParameters, params.accepted .client = true ∧
      params.minAckDelay = some 100000 ∧
      AckFrequencyState.candidateMaxAckDelay ⟨none, 0, 100_000_000⟩ 10_000_000 ⟨1, none, 2⟩
        params = none :=
  ⟨⟨65527, 0, 0, 3, 100, 2, some 100000, false, false⟩, by decide, rfl, by decide⟩

section Runs

/-- The ACK_FREQUENCY frame sent last: its packet, the delay it asks for, and whether the
packet has been declared lost. -/
structure Latest where
  packet : Nat
  delay : Nat
  lost : Bool

structure State where
  ackFrequency : AckFrequencyState
  rtt : Nat
  /-- `pending.ack_frequency` of the Data space. -/
  pending : Bool
  nextPacketNumber : Nat
  /-- The packets tracked in the Data space, with `ack_frequency` of their retransmits. -/
  sentPackets : List (Nat × Bool)
  /-- A history variable. -/
  latest : Option Latest

inductive Event
  /-- `skipped` packet numbers are left out. -/
  | poll (inData blocked other : Bool) (skipped : Nat)
  /-- A packet of the Data space, or of another one, is acknowledged. -/
  | acked (inData : Bool) (pn : Nat)
  | lost (pn : Nat)
  | rtt (rtt : Nat)

section Step

variable (config : AckFrequencyConfig) (params : TransportParameters)

/-- The next packet of the Data space is populated and tracked.  The second component tells
whether it has an ACK_FREQUENCY frame. -/
def populatePacket (s : State) (skipped : Nat) : Option (State × Bool) :=
  let pn := s.nextPacketNumber + skipped
  let s := { s with nextPacketNumber := pn + 1, sentPackets := (pn, s.pending) :: s.sentPackets }
  if s.pending then
    (s.ackFrequency.candidateMaxAckDelay s.rtt config params).map fun delay =>
      ({ s with
          pending := false
          ackFrequency := { s.ackFrequency.ackFrequencySent pn delay with
            nextOutgoingSequenceNumber := s.ackFrequency.nextOutgoingSequenceNumber + 1 }
          latest := some ⟨pn, delay, false⟩ }, true)
  else some (s, false)

/-- `poll_transmit`: the flag is set anew; unless the connection is blocked or has nothing to
send, a packet is populated.  `inData` says whether the Data space is the highest one, and
`other` whether there are other frames. -/
def pollTransmit (s : State) (inData blocked other : Bool) (skipped : Nat) :
    Option (State × Bool) := do
  let should ← s.ackFrequency.shouldSendAckFrequency s.rtt config params
  let s := { s with pending := should && inData && params.minAckDelay.isSome }
  if !blocked && (s.pending || other) then populatePacket config params s skipped
  else some (s, false)

def step (s : State) : Event → Option State
  | .poll inData blocked other skipped =>
    (pollTransmit config params s inData blocked other skipped).map (·.1)
  | .acked true pn =>
    if pn ∈ s.sentPackets.map (·.1) then
      some { s with
        sentPackets := s.sentPackets.filter (·.1 ≠ pn)
        ackFrequency := s.ackFrequency.onAcked pn }
    else none
  | .acked false pn => some { s with ackFrequency := s.ackFrequency.onAcked pn }
  | .lost pn =>
    if pn ∈ s.sentPackets.map (·.1) then
      some { s with
        sentPackets := s.sentPackets.filter (·.1 ≠ pn)
        pending := s.pending || s.sentPackets.any fun e => e.1 = pn && e.2
        latest := s.latest.map fun l => { l with lost := l.lost || l.packet = pn } }
    else none
  | .rtt rtt => some { s with rtt }

def initial (peerMaxAckDelay rtt : Nat) : State :=
  ⟨⟨none, 0, peerMaxAckDelay⟩, rtt, false, 0, [], none⟩

def system : System State Event where
  initial s := ∃ peerMaxAckDelay rtt, s = initial peerMaxAckDelay rtt
  step := step config params

end Step

variable {config : AckFrequencyConfig} {params : TransportParameters} {s s' : State}
  {pn skipped : Nat}

structure Inv (s : State) : Prop where
  numbers : ∀ e ∈ s.sentPackets, e.1 < s.nextPacketNumber
  sequence : s.latest.isSome → s.ackFrequency.nextOutgoingSequenceNumber ≠ 0
  current : ∀ l ∈ s.latest, l.packet < s.nextPacketNumber ∧ s.ackFrequency.current = l.delay
  inFlight : ∀ n delay, s.ackFrequency.inFlightAckFrequencyFrame = some (n, delay) →
    ∃ lost, s.latest = some ⟨n, delay, lost⟩ ∧ (n ∈ s.sentPackets.map (·.1) ↔ lost = false)

theorem Inv.populate (h : Inv s) {r : State × Bool}
    (hpopulate : populatePacket config params s skipped = some r) : Inv r.1 := by
  have hnumbers : ∀ e ∈ (s.nextPacketNumber + skipped, s.pending) :: s.sentPackets,
      e.1 < s.nextPacketNumber + skipped + 1 := by
    intro e he
    rcases List.mem_cons.mp he with rfl | he
    · exact Nat.lt_succ_self _
    · exact lt_of_lt_of_le (h.numbers e he) (by omega)
  unfold populatePacket at hpopulate
  dsimp only at hpopulate
  split_ifs at hpopulate with hpending
  · obtain ⟨delay, -, rfl⟩ := map_eq_some_iff.mp hpopulate
    refine ⟨hnumbers, fun _ => Nat.succ_ne_zero _, ?_, ?_⟩
    · rintro l ⟨⟩
      exact ⟨Nat.lt_succ_self _, rfl⟩
    · rintro n delay ⟨⟩
      exact ⟨false, rfl, by simp⟩
  · cases hpopulate
    refine ⟨hnumbers, h.sequence, ?_, ?_⟩
    · intro l hl
      obtain ⟨hlt, hcurrent⟩ := h.current l hl
      exact ⟨lt_of_lt_of_le hlt (by dsimp only; omega), hcurrent⟩
    · intro n delay hflight
      obtain ⟨lost, hlatest, htracked⟩ := h.inFlight n delay hflight
      have hlt := (h.current _ hlatest).1
      refine ⟨lost, hlatest, ?_⟩
      rw [← htracked, List.map_cons, List.mem_cons]
      exact or_iff_right (by dsimp only at hlt ⊢; omega)

theorem Inv.poll (h : Inv s) {inData blocked other : Bool} {r : State × Bool}
    (hpoll : pollTransmit config params s inData blocked other skipped = some r) :
    Inv r.1 := by
  obtain ⟨should, -, hpoll⟩ := bind_eq_some_iff.mp hpoll
  dsimp only at hpoll
  have hset : Inv { s with pending := should && inData && params.minAckDelay.isSome } :=
    { h with }
  split_ifs at hpoll
  · exact hset.populate hpoll
  · cases hpoll
    exact hset

/-- A frame that is sent is the one sent last, and not lost. -/
theorem latest_of_emitted {inData blocked other : Bool}
    (hpoll : pollTransmit config params s inData blocked other skipped = some (s', true)) :
    ∃ l : Latest, s'.latest = some { l with lost := false } := by
  obtain ⟨should, -, hpoll⟩ := bind_eq_some_iff.mp hpoll
  dsimp only [populatePacket] at hpoll
  split_ifs at hpoll
  · obtain ⟨delay, -, heq⟩ := map_eq_some_iff.mp hpoll
    cases heq
    exact ⟨⟨_, delay, false⟩, rfl⟩
  all_goals cases hpoll

theorem mem_filter_ne {n : Nat} {l : List (Nat × Bool)} :
    n ∈ (l.filter (·.1 ≠ pn)).map (·.1) ↔ n ≠ pn ∧ n ∈ l.map (·.1) := by
  simp only [List.mem_map, List.mem_filter, decide_eq_true_eq]
  constructor
  · rintro ⟨e, ⟨he, hne⟩, rfl⟩
    exact ⟨hne, e, he, rfl⟩
  · rintro ⟨hne, e, he, rfl⟩
    exact ⟨e, ⟨he, hne⟩, rfl⟩

theorem Inv.onAcked (h : Inv s) (pn : Nat) {sentPackets : List (Nat × Bool)}
    (hsent : ∀ e ∈ sentPackets, e ∈ s.sentPackets)
    (hkept : ∀ n, n ≠ pn → (n ∈ sentPackets.map (·.1) ↔ n ∈ s.sentPackets.map (·.1))) :
    Inv { s with sentPackets, ackFrequency := s.ackFrequency.onAcked pn } := by
  have hother : (∀ delay, s.ackFrequency.inFlightAckFrequencyFrame ≠ some (pn, delay)) →
      Inv { s with sentPackets } := by
    intro hne
    refine ⟨fun e he => h.numbers e (hsent e he), h.sequence, h.current, ?_⟩
    intro n delay hflight
    obtain ⟨lost, hlatest, htracked⟩ := h.inFlight n delay hflight
    refine ⟨lost, hlatest, (hkept n ?_).trans htracked⟩
    rintro rfl
    exact hne delay hflight
  unfold AckFrequencyState.onAcked
  split
  · next number delay hflight =>
    split_ifs with heq
    · obtain ⟨lost, hlatest, -⟩ := h.inFlight number delay hflight
      refine ⟨fun e he => h.numbers e (hsent e he), h.sequence, ?_, by rintro n d ⟨⟩⟩
      intro l hl
      obtain rfl : ⟨number, delay, lost⟩ = l := some.inj (hlatest.symm.trans hl)
      exact ⟨(h.current _ hl).1, rfl⟩
    · refine hother fun d hd => heq ?_
      exact congrArg Prod.fst (some.inj (hflight.symm.trans hd))
  · next hnone => exact hother fun d hd => by rw [hnone] at hd; cases hd

theorem Inv.lost (h : Inv s) (pn : Nat) (pending : Bool) : Inv { s with
      sentPackets := s.sentPackets.filter (·.1 ≠ pn)
      pending
      latest := s.latest.map fun l => { l with lost := l.lost || l.packet = pn } } := by
  refine ⟨fun e he => h.numbers e ((List.mem_filter.mp he).1), ?_, ?_, ?_⟩
  · intro hsome
    exact h.sequence (by simpa using hsome)
  · intro l hl
    obtain ⟨l', hl', rfl⟩ := map_eq_some_iff.mp hl
    exact h.current l' hl'
  · intro n delay hflight
    obtain ⟨lost, hlatest, htracked⟩ := h.inFlight n delay hflight
    refine ⟨lost || n = pn, by rw [hlatest]; rfl, ?_⟩
    rw [mem_filter_ne, htracked, Bool.or_eq_false_iff, decide_eq_false_iff_not, and_comm]

theorem inv_step {a : Event} (h : Inv s) (hstep : step config params s a = some s') :
    Inv s' := by
  cases a with
  | poll =>
    obtain ⟨r, hpoll, rfl⟩ := map_eq_some_iff.mp hstep
    exact h.poll hpoll
  | acked inData pn =>
    cases inData with
    | true =>
      obtain ⟨-, heq⟩ := ite_none_right_eq_some.mp hstep
      cases heq
      exact h.onAcked pn (fun e he => (List.mem_filter.mp he).1)
        fun n hne => mem_filter_ne.trans (and_iff_right hne)
    | false =>
      cases hstep
      exact h.onAcked pn (fun e he => he) fun n _ => Iff.rfl
  | lost pn =>
    obtain ⟨-, heq⟩ := ite_none_right_eq_some.mp hstep
    cases heq
    exact h.lost pn _
  | rtt =>
    cases hstep
    exact { h with }

theorem inv_of_reachable (h : (system config params).Reachable s) : Inv s := by
  refine h.invariant ?_ fun _ _ _ => inv_step
  rintro s ⟨peerMaxAckDelay, rtt, rfl⟩
  exact ⟨by rintro e ⟨⟩, nofun, by rintro l ⟨⟩, by rintro n delay ⟨⟩⟩

/-- The frame recorded as in flight is that of a tracked packet. -/
def State.Tracked (s : State) : Prop :=
  ∀ n delay, s.ackFrequency.inFlightAckFrequencyFrame = some (n, delay) →
    n ∈ s.sentPackets.map (·.1)

theorem Inv.tracked_iff (h : Inv s) : s.Tracked ↔ ∀ n delay,
    s.ackFrequency.inFlightAckFrequencyFrame = some (n, delay) →
      s.latest ≠ some ⟨n, delay, true⟩ := by
  constructor
  · intro htracked n delay hflight hlost
    obtain ⟨lost, hlatest, hiff⟩ := h.inFlight n delay hflight
    have hfalse := hiff.mp (htracked n delay hflight)
    rw [hlatest, hfalse] at hlost
    cases hlost
  · intro hkept n delay hflight
    obtain ⟨lost, hlatest, hiff⟩ := h.inFlight n delay hflight
    refine hiff.mpr (eq_false_of_ne_true fun hlost => hkept n delay hflight ?_)
    rw [hlatest, hlost]

/-- What a poll that is not blocked does after the frame sent last was lost. -/
theorem Inv.poll_of_lost (h : Inv s) (hpeer : params.minAckDelay.isSome) {n delay : Nat}
    (hlatest : s.latest = some ⟨n, delay, true⟩) (other : Bool) (skipped : Nat) :
    (∃ s', pollTransmit config params s true false other skipped = some (s', true)) ↔
      ∃ candidate, s.ackFrequency.candidateMaxAckDelay s.rtt config params = some candidate ∧
        exceeds candidate delay = true := by
  have hcurrent := (h.current _ hlatest).2
  have hsequence := h.sequence (by rw [hlatest]; rfl)
  rw [pollTransmit, AckFrequencyState.shouldSendAckFrequency, if_neg hsequence, hcurrent]
  rcases hcandidate : s.ackFrequency.candidateMaxAckDelay s.rtt config params with _ | candidate
  · simp
  · cases hexceeds : exceeds candidate delay with
    | false =>
      cases other <;> simp [hexceeds, populatePacket]
    | true => simp [hexceeds, hpeer, populatePacket, hcandidate]

/-- The frame recorded as in flight is that of a tracked packet exactly while the packet was not
lost.  After a loss a poll that is not blocked sends the frame again, and the record is that of
a tracked packet again, exactly when the delay it would ask for is far enough from the one in
the lost frame. -/
theorem lost_ackFrequency_resent_iff (h : (system config params).Reachable s)
    (hpeer : params.minAckDelay.isSome) :
    (s.Tracked ↔ ∀ n delay, s.ackFrequency.inFlightAckFrequencyFrame = some (n, delay) →
      s.latest ≠ some ⟨n, delay, true⟩) ∧
    ∀ n delay, s.latest = some ⟨n, delay, true⟩ → ∀ other skipped,
      ((∃ s', pollTransmit config params s true false other skipped = some (s', true) ∧
          s'.Tracked) ↔
        ∃ candidate, s.ackFrequency.candidateMaxAckDelay s.rtt config params = some candidate ∧
          exceeds candidate delay = true) := by
  have hi := inv_of_reachable h
  refine ⟨hi.tracked_iff, fun n delay hlatest other skipped => ?_⟩
  rw [← hi.poll_of_lost hpeer hlatest other skipped]
  constructor
  · rintro ⟨s', hpoll, -⟩
    exact ⟨s', hpoll⟩
  · rintro ⟨s', hpoll⟩
    obtain ⟨l, hl⟩ := latest_of_emitted hpoll
    refine ⟨s', hpoll, (hi.poll hpoll).tracked_iff.mpr fun m d _ hlost => ?_⟩
    rw [hl] at hlost
    cases hlost

def requestLost (rtt : Nat) : State :=
  ⟨⟨some (0, 100_000_000), 1, 25_000_000⟩, rtt, true, 1, [], some ⟨0, 100_000_000, true⟩⟩

def quickPeer : TransportParameters :=
  ⟨65527, 0, 0, 3, 25, 2, some 1000, false, false⟩

theorem reachable_requestLost (rtt : Nat) :
    (system ⟨1, some 1_000_000_000, 2⟩ quickPeer).Reachable (requestLost rtt) := by
  have hcandidate : (initial 25_000_000 100_000_000).ackFrequency.candidateMaxAckDelay 100_000_000
      ⟨1, some 1_000_000_000, 2⟩ quickPeer = some 100_000_000 := by decide
  have hrun : (system ⟨1, some 1_000_000_000, 2⟩ quickPeer).run
      (initial 25_000_000 100_000_000) [.poll true false false 0, .lost 0, .rtt rtt] =
      some (requestLost rtt) := by
    simp only [System.run, system, step, pollTransmit, populatePacket, initial] at hcandidate ⊢
    simp [AckFrequencyState.shouldSendAckFrequency, AckFrequencyState.ackFrequencySent,
      hcandidate, requestLost, show quickPeer.minAckDelay.isSome = true from rfl]
  exact .of_run (.initial ⟨_, _, rfl⟩) hrun

/-- The round trip time has doubled, so the next poll makes a new request. -/
theorem requestLost_resent : ∃ s', pollTransmit ⟨1, some 1_000_000_000, 2⟩ quickPeer
    (requestLost 200_000_000) true false false 0 = some (s', true) ∧ s'.Tracked :=
  ((lost_ackFrequency_resent_iff (reachable_requestLost 200_000_000) rfl).2 0 100_000_000 rfl
    false 0).mpr ⟨200_000_000, by decide, by decide +kernel⟩

/-- With the round trip time as it was, the request is not made again, and the record of it
stays though its packet is gone. -/
theorem requestLost_not_resent :
    (system ⟨1, some 1_000_000_000, 2⟩ quickPeer).Reachable (requestLost 100_000_000) ∧
    (requestLost 100_000_000).latest = some ⟨0, 100_000_000, true⟩ ∧
    (requestLost 100_000_000).ackFrequency.inFlightAckFrequencyFrame = some (0, 100_000_000) ∧
    (requestLost 100_000_000).sentPackets = [] ∧
    pollTransmit ⟨1, some 1_000_000_000, 2⟩ quickPeer (requestLost 100_000_000) true false
      false 0 = some ({ requestLost 100_000_000 with pending := false }, false) := by
  refine ⟨reachable_requestLost _, rfl, rfl, rfl, ?_⟩
  have hcandidate : (requestLost 100_000_000).ackFrequency.candidateMaxAckDelay 100_000_000
      ⟨1, some 1_000_000_000, 2⟩ quickPeer = some 100_000_000 := by decide
  have hsame : exceeds 100_000_000 100_000_000 = false := by decide +kernel
  simp only [pollTransmit, requestLost] at hcandidate ⊢
  simp [AckFrequencyState.shouldSendAckFrequency, hcandidate, AckFrequencyState.current, hsame]

end Runs

end Quac.AckFrequency
