import Quac.ConnectionSteps

/-!
How a connection ends: its state, the reason that it reports to the application and
the event that tells the endpoint to forget it.
-/

namespace Quac.Lifecycle

open ConnectionSteps Identifiers Lib.Slabs ProtoConnection ProtoEndpoint Timers Endpoint

variable {was : State} {e : Endpoint} {c c' : Connection} {now : Instant}

theorem handled_rule (packets : List PacketInput) (c : Connection) :
    PacketRule packets (Handled c) where
  step _ _ _ h := h.trans (.inl (.of_eq rfl rfl rfl (.of_eq rfl rfl)))
  handled h hs _ _ := h.trans hs

/-- A connection that is closed has told why, and one that was drained has told the
endpoint; before that neither is said, and the close timer does not run. -/
structure NearlySound (was : State) (c : Connection) : Prop where
  lost : ∀ reason, .connectionLost reason ∉ c.events
  alive : c.state.isClosed = false →
    c.error = none ∧ .drained ∉ c.endpointEvents ∧ c.timers.get .close = none
  closed : c.state.isClosed = true → c.error ≠ none
  drained : was = .drained → .drained ∈ c.endpointEvents

/-- One that is drained by now has told the endpoint too. -/
abbrev Sound (c : Connection) : Prop :=
  NearlySound c.state c

theorem Sound.of_steady (h : Sound c) (hs : Steady c c') : Sound c' where
  lost reason hr := h.lost reason (hs.lost reason hr)
  alive hopen := by
    obtain ⟨herror, hdrained, hclose⟩ := h.alive (hs.isClosed.symm.trans hopen)
    exact ⟨hs.error.trans herror, fun hmem => hdrained (hs.drained.mp hmem),
      hs.closeTimer.trans hclose⟩
  closed hclosed := by
    rw [hs.error]
    exact h.closed (hs.isClosed.symm.trans hclosed)
  drained hdrained := hs.drained.mpr (h.drained (hs.isDrained.mp hdrained))

theorem Sound.of_handled (h : Sound c) (hs : Handled c c') : Sound c' := by
  rcases hs with hs | hs
  · exact h.of_steady hs
  · refine ⟨fun reason hr => h.lost reason (hs.lost reason hr), ?_, fun _ => hs.error,
      fun hdrained => absurd hdrained hs.undrained⟩
    intro hopen
    rw [hs.isClosed] at hopen
    cases hopen

theorem sound_new (config : TransportConfig) : Sound (.new config) where
  lost _ := List.not_mem_nil
  alive _ := ⟨rfl, List.not_mem_nil, rfl⟩
  closed h := by cases h
  drained h := by cases h

theorem NearlySound.of_closed (h : NearlySound was c)
    (hclosed : c.state.isClosed = true) (hstate : c'.state = c.state) (herror : c'.error = c.error)
    (hevents : c'.events = c.events) (hendpoint : c'.endpointEvents = c.endpointEvents) :
    NearlySound was c' where
  lost reason := hevents ▸ h.lost reason
  alive hopen := by
    rw [hstate, hclosed] at hopen
    cases hopen
  closed _ := herror ▸ h.closed hclosed
  drained hwas := hendpoint ▸ h.drained hwas

/-- The end of `handle_packet`: stop the timers, tell the endpoint, answer the peer. -/
theorem NearlySound.sound (h : NearlySound was c) (now : Instant) (pto : Nat) (samePath : Bool) :
    Sound
      (let c' :=
        if !was.isClosed && c.state.isClosed then
          if c.state = .drained then c.closeCommon else c.closeCommon.setCloseTimer now pto
        else c
      let c' :=
        if was ≠ .drained ∧ c'.state = .drained then
          { c' with
            endpointEvents := c'.endpointEvents ++ [.drained]
            timers := c'.timers.stop .close }
        else c'
      if c'.state = .closed then { c' with close := samePath } else c') := by
  have htimers : NearlySound was
      (if !was.isClosed && c.state.isClosed then
        if c.state = .drained then c.closeCommon else c.closeCommon.setCloseTimer now pto
      else c) := by
    split_ifs with hcloses hdrained
    iterate 2 exact h.of_closed (Bool.and_eq_true_iff.mp hcloses).2 rfl rfl rfl rfl
    exact h
  have htold : ∀ c₁, NearlySound was c₁ → Sound (if was ≠ .drained ∧ c₁.state = .drained then
      { c₁ with
        endpointEvents := c₁.endpointEvents ++ [.drained]
        timers := c₁.timers.stop .close }
      else c₁) := by
    intro c₁ h₁
    split_ifs with hdrained
    · refine ⟨h₁.lost, ?_, h₁.closed, by simp⟩
      intro hopen
      rw [hdrained.2] at hopen
      cases hopen
    · exact { h₁ with
        drained hstate := h₁.drained (by_contra fun hwas => hdrained ⟨hwas, hstate⟩) }
  have hanswer : ∀ c₂, Sound c₂ →
      Sound (if c₂.state = .closed then { c₂ with close := samePath } else c₂) := by
    intro c₂ h₂
    split_ifs
    · exact { h₂ with }
    · exact h₂
  exact hanswer _ (htold _ htimers)

theorem Sound.handlePacket (h : Sound c) (now : Instant) (pto : Nat) (samePath : Bool)
    (input : PacketInput) : Sound (c.handlePacket now pto samePath input) := by
  unfold Connection.handlePacket
  split
  · exact h
  · rename_i result c₁ hresult
    have hhandled : Handled c c₁ :=
      (handled_rule [input] c).decryptedResult (List.mem_singleton_self _) hresult (.inl .refl)
    have hwas : c.state = .drained → .drained ∈ c₁.endpointEvents :=
      fun hstate => hhandled.silent.drained.mpr (h.drained hstate)
    have hsound := h.of_handled hhandled
    rcases result with e | ⟨⟩
    · refine NearlySound.sound (c := { c₁ with error := some e, state := Connection.errorState e })
        ⟨hsound.lost, ?_, by simp, hwas⟩ now pto samePath
      intro hopen
      rw [isClosed_errorState] at hopen
      cases hopen
    · exact NearlySound.sound { hsound with drained := hwas } now pto samePath

theorem Sound.handleDatagram (h : Sound c) (d : Connection.Datagram) :
    Sound (c.handleDatagram d) := by
  refine of_steady ?_ (steady_rearm _ d.handled)
  generalize d.packets = packets
  induction packets generalizing c with
  | nil => exact h
  | cons packet _ ih => exact ih (h.handlePacket d.now d.pto d.samePath packet)

/-- A connection that is sound and closed only when all is over with it. -/
structure Ending (c : Connection) : Prop extends Sound c where
  ended : c.state.isClosed = true → c.state = .drained

theorem ending_kill (h : Sound c) (reason : ConnectionError) : Ending (c.kill reason) where
  lost := h.lost
  alive hopen := by cases hopen
  closed _ := by simp [Connection.kill]
  drained _ := by simp [Connection.kill]
  ended _ := rfl

theorem Ending.of_steady (h : Ending c) (hs : Steady c c') : Ending c' :=
  ⟨Sound.of_steady h.toNearlySound hs,
    fun hclosed => hs.isDrained.mpr (h.ended (hs.isClosed.symm.trans hclosed))⟩

theorem Ending.handleTimer (h : Ending c)
    (htimers : c.state.isClosed = true → c.timers = .empty) (now : Instant)
    (input : Connection.TimeoutInput) (timer : Timer) :
    Ending (Connection.handleTimer now input c timer) ∧
      ((Connection.handleTimer now input c timer).state.isClosed = true →
        (Connection.handleTimer now input c timer).timers = .empty) := by
  unfold Connection.handleTimer
  split_ifs with hexpired
  · have hopen : c.state.isClosed = false := by
      by_contra hclosed
      rw [htimers (by simpa using hclosed)] at hexpired
      cases hexpired
    have hclose := (h.alive hopen).2.2
    have hopen' : ∀ {c' : Connection}, Steady c c' →
        Ending c' ∧ (c'.state.isClosed = true → c'.timers = .empty) := by
      intro c' hs
      refine ⟨h.of_steady hs, fun hclosed => ?_⟩
      rw [hs.isClosed, hopen] at hclosed
      cases hclosed
    have hstop : timer ≠ .close → Steady c { c with timers := c.timers.stop timer } :=
      fun hne => ⟨.of_eq rfl rfl, rfl, Iff.rfl, rfl, Function.update_of_ne (Ne.symm hne) _ _⟩
    cases timer with
    | close =>
      have hstopped : c.timers .close = none := hclose
      simp [TimerTable.isExpired, hstopped] at hexpired
    | idle =>
      exact ⟨ending_kill (h.of_steady (hstop (by simp))).toNearlySound .timedOut, fun _ => rfl⟩
    | lossDetection =>
      exact hopen' (((hstop (by simp)).trans (steady_recover _ _)).trans (steady_rearm _ _))
    | pushNewCid =>
      dsimp only
      rw [hopen]
      exact hopen' ((hstop (by simp)).trans
        (.of_eq rfl rfl rfl ⟨fun _ h => h, by simp⟩))
    | keepAlive | keyDiscard | pathValidation | pacing | maxAckDelay =>
      exact hopen' (hstop (by simp))
  · exact ⟨h, htimers⟩

theorem Ending.handleTimeout (h : Ending c) (hopen : c.state.isClosed = false) (now : Instant)
    (input : Connection.TimeoutInput) : Ending (c.handleTimeout now input) := by
  unfold Connection.handleTimeout
  have htimers : c.state.isClosed = true → c.timers = .empty := by simp [hopen]
  clear hopen
  generalize Timer.values = timers
  induction timers generalizing c with
  | nil => exact h
  | cons timer _ ih =>
    obtain ⟨hnext, htimers'⟩ := h.handleTimer htimers now input timer
    exact ih hnext htimers'

def KeysLast (steps : List Connection.TransmitStep) : Prop :=
  ∀ step ∈ steps, step ≠ .confidentialityKill ∧ ∀ pto, step ≠ .confidentialityClose pto

theorem steady_populatePacket (c : Connection) (window : Nat × Nat) (datagramsUnblocked : Bool) :
    Steady c (c.populatePacket window datagramsUnblocked) :=
  .of_eq rfl rfl rfl ⟨(silent_notify c datagramsUnblocked (by simp)).lost, Iff.rfl⟩

theorem steady_transmitLoop (now : Instant) (closing : Bool) (c : Connection) (sent : Bool)
    {steps : List Connection.TransmitStep} (hsteps : KeysLast steps) :
    Steady c (Connection.transmitLoop now closing c sent steps).2 := by
  induction steps generalizing c sent with
  | nil => exact .refl
  | cons step steps ih =>
    obtain ⟨hkill, hclose⟩ := hsteps step List.mem_cons_self
    have hgo : ∀ {c₁ : Connection}, Steady c c₁ →
        Steady c (Connection.transmitLoop now closing c₁ true steps).2 := fun h =>
      h.trans (ih _ _ fun step hmem => hsteps step (List.mem_cons_of_mem _ hmem))
    cases step with
    | packet window _ datagramsUnblocked rearm =>
      simp only [Connection.transmitLoop]
      split_ifs
      · exact (steady_rearm c rearm).trans (.of_eq rfl rfl rfl (.of_eq rfl rfl))
      · exact hgo (steady_rearm c rearm)
      · refine hgo (.trans ?_ (steady_rearm _ rearm))
        rcases window with _ | window
        · exact .refl
        · exact steady_populatePacket c window datagramsUnblocked
    | pacing => exact ⟨.of_eq rfl rfl, rfl, Iff.rfl, rfl, rfl⟩
    | confidentialityClose pto => exact absurd rfl (hclose pto)
    | confidentialityKill => exact absurd rfl hkill

theorem steady_pollTransmit (c : Connection) {input : Connection.TransmitInput}
    (hsteps : KeysLast input.steps) : Steady c (c.pollTransmit input).2 := by
  have hloop := steady_transmitLoop input.now c.state.isClosed c false hsteps
  unfold Connection.pollTransmit
  split_ifs
  · exact .refl
  · exact .refl
  · dsimp only
    split_ifs
    · exact hloop
    · split
      · exact hloop.trans (steady_rearm _ _)
      · exact hloop
    · split <;> exact hloop

variable {config : TransportConfig}

theorem sound_handleFirstPacket {first : Decrypted} {rest : Connection.Datagram} {conn : Connection}
    (h : (Connection.new config).handleFirstPacket first rest = .ok conn) : Sound conn := by
  have hauth := (sound_new config).of_steady (steady_rearm _ first.authenticated)
  have hfirst := (handled_rule [.decrypted first] { Connection.new config with
    timers := first.authenticated.apply (Connection.new config).timers }).processDecryptedPacket
    (List.mem_singleton_self _) (.inl .refl)
  unfold Connection.handleFirstPacket at h
  split at h
  · cases h
  · rename_i heq
    rw [heq] at hfirst
    cases h
    exact (hauth.of_handled hfirst).handleDatagram rest

/-- What is kept however a connection is served and ends. -/
structure EndRule (Q : Connection → Prop) : Prop where
  handled : ∀ {c c'}, Q c → Handled c c' → Q c'
  same : ∀ {c c'}, Q c → c'.state = c.state → c'.error = c.error → c'.events = c.events → Q c'
  closed : ∀ {c c'}, Q c → c'.state.isClosed = true → c'.events = c.events → Q c'

namespace EndRule

variable {Q : Connection → Prop}

theorem closing (h : EndRule Q) : ClosingRule Q :=
  ⟨fun hc hstate herror hevents _ => h.same hc hstate herror hevents,
    fun hc hclosed hevents _ => h.closed hc hclosed hevents⟩

theorem input (h : EndRule Q) (packets : List PacketInput) : InputRule packets Q where
  toClosingRule := h.closing
  step _ _ _ hc := h.same hc rfl rfl rfl
  handled hc hs _ _ := h.handled hc hs

theorem output (h : EndRule Q) : OutputRule Q where
  toClosingRule := h.closing
  populate c window datagramsUnblocked hc :=
    h.handled hc (.inl (steady_populatePacket c window datagramsUnblocked))

end EndRule

/-- What holds of a connection however it ends: the application learns of it only
from the reason, which an open connection does not have. -/
structure Tame (c : Connection) : Prop where
  lost : ∀ reason, .connectionLost reason ∉ c.events
  closed : c.error ≠ none → c.state.isClosed = true

theorem tame_endRule : EndRule Tame where
  handled h hs := by
    refine ⟨fun reason hr => h.lost reason (hs.silent.lost reason hr), fun herror => ?_⟩
    rcases hs with hs | hs
    · exact hs.isClosed.trans (h.closed (hs.error ▸ herror))
    · exact hs.isClosed
  same h hstate herror hevents :=
    ⟨fun reason => hevents ▸ h.lost reason, fun he => hstate ▸ h.closed (herror ▸ he)⟩
  closed h hclosed hevents := ⟨fun reason => hevents ▸ h.lost reason, fun _ => hclosed⟩

/-- Once closed, a connection stays closed. -/
theorem closed_endRule : EndRule fun c => c.state.isClosed = true where
  handled h hs := by
    rcases hs with hs | hs
    · exact hs.isClosed.trans h
    · exact hs.isClosed
  same h hstate _ _ := hstate ▸ h
  closed _ hclosed _ := hclosed

theorem open_of (hcloses : c.state.isClosed = true → c'.state.isClosed = true)
    (h : c'.state.isClosed = false) : c.state.isClosed = false :=
  eq_false_of_ne_true fun hclosed => Bool.false_ne_true (h.symm.trans (hcloses hclosed))

theorem Sound.tame (h : Sound c) : Tame c := by
  refine ⟨h.lost, fun herror => ?_⟩
  by_contra hopen
  exact herror (h.alive (by simpa using hopen)).1

def Holds (e : Endpoint) (ch : Nat) : Prop :=
  (e.connections.get ch).isSome

theorem holds_set {j : Nat} (hj : (e.connections.get j).isSome)
    (info : ConnectionMeta) (ch : Nat) : Holds ⟨e.connections.set j info⟩ ch ↔ Holds e ch := by
  unfold Holds
  rw [Slab.get_set _ _ _ _ hj]
  split_ifs with heq
  · subst heq
    simp [hj]
  · rfl

theorem holds_remove (e : Endpoint) (j ch : Nat) :
    Holds ⟨e.connections.remove j⟩ ch ↔ Holds e ch ∧ ch ≠ j := by
  unfold Holds
  rw [Slab.get_remove]
  split_ifs with heq <;> simp [heq]

theorem holds_sendNewIdentifiers (e : Endpoint) (j count ch : Nat) :
    Holds (e.sendNewIdentifiers j count) ch ↔ Holds e ch := by
  unfold sendNewIdentifiers
  split
  · rfl
  · rename_i info hinfo
    exact holds_set (by simp [hinfo]) _ ch

theorem holds_handleEvent (e : Endpoint) (j : Nat) (event : EndpointEvent) (ch : Nat) :
    Holds (e.handleEvent j event).2 ch ↔ Holds e ch ∧ ¬ (ch = j ∧ event = .drained) := by
  cases event with
  | drained => simp [handleEvent, holds_remove]
  | resetToken => simp [handleEvent]
  | needIdentifiers => simp [handleEvent, holds_sendNewIdentifiers]
  | retireConnectionId =>
    simp only [handleEvent, reduceCtorEq, and_false, not_false_eq_true, and_true]
    split
    · rfl
    · rename_i info hinfo
      have hset := fun info' => holds_set (e := e) (j := j) (by simp [hinfo]) info' ch
      split_ifs
      · exact (holds_sendNewIdentifiers _ j 1 ch).trans (hset _)
      · exact hset _
      · rfl

theorem holds_addConnection (e : Endpoint) (preferredAddress : Bool) (ch : Nat) :
    Holds (e.addConnection preferredAddress) ch ↔ ch = e.connections.vacantKey ∨ Holds e ch := by
  unfold Holds addConnection
  rw [Slab.get_insert]
  split_ifs with heq <;> simp [heq]

theorem not_holds_vacantKey (e : Endpoint) : ¬ Holds e e.connections.vacantKey := by
  simp [Holds]

theorem accept_ok {e' : Endpoint} {incoming : Incoming} {ch : Nat}
    {conn : Connection} (h : e.accept config incoming = (.ok (ch, conn), e')) :
    Sound conn ∧ ¬ Holds e ch ∧ ∀ j, Holds e' j ↔ j = ch ∨ Holds e j := by
  cases incoming with
  | refused => cases h
  | initial preferredAddress _ _ buffered =>
    simp only [accept] at h
    split at h
    · rename_i conn' hfirst
      cases h
      refine ⟨?_, not_holds_vacantKey e, holds_addConnection e preferredAddress⟩
      exact List.foldlRecOn buffered _ (sound_handleFirstPacket hfirst)
        fun _ h d _ => h.handleDatagram d
    · cases h

theorem accept_error {e' : Endpoint} {incoming : Incoming}
    {response : Option Transmit} (h : e.accept config incoming = (.error response, e')) (j : Nat) :
    Holds e' j ↔ Holds e j := by
  cases incoming with
  | refused =>
    cases h
    rfl
  | initial =>
    simp only [accept] at h
    split at h
    · cases h
    · cases h
      rw [holds_handleEvent, holds_addConnection]
      constructor
      · rintro ⟨hnew | hold, hne⟩
        · exact absurd ⟨hnew, rfl⟩ hne
        · exact hold
      · intro hold
        refine ⟨.inr hold, ?_⟩
        rintro ⟨rfl, -⟩
        exact not_holds_vacantKey e hold

end Quac.Lifecycle
