import Quac.TileWork

/-!
Which connection a command reaches.  Commands name their connection by its slot, and
slots are reused.
-/

namespace Quac.HandleIsolation

open App Bridge EngineSteps Identifiers Lib.BoundedQueue Lib.Transition
open ProtoConnection hiding State
open ProtoEndpoint Tile TileEngine ArrayQueue List Option

variable {s s' : State} {issuers : List ConnId}

/-- Note a command's issuer when the queue takes the command. -/
def issue (s : State) (conn : ConnId) (issuers : List ConnId) : List ConnId :=
  if s.engine.cmdQueue.items.length < s.engine.cmdQueue.capacity then issuers ++ [conn]
  else issuers

/-- For each queued command, the connection whose handle issued it. -/
def observeIssuers (s : State) (a : Label) (issuers : List ConnId) : List ConnId :=
  match a.issues, a with
  | some (conn, _), _ => issue s conn issuers
  | none, .command _ => issuers.tail
  | none, _ => issuers

def issued : System (State × List ConnId) Label :=
  system.observed [] observeIssuers

/-- The slots that handles and queued commands name. -/
def outstanding (s : State) : List Nat :=
  s.engine.incoming.items.map (·.slot) ++ s.handles.connections.map (·.slot) ++
    s.handles.sends.map (·.slot) ++ s.engine.cmdQueue.items.map (·.conn)

/-- No connection is accepted into a slot that something still names. -/
def NoReuse (s : State × List ConnId) : Label → Prop
  | .receive (.newConnection _) _ =>
    s.1.engine.connections.vacantKey < 2 ^ 32 ∧ s.1.engine.connections.vacantKey ∉ outstanding s.1
  | _ => True

def Owned (e : Engine) (k : Nat) (conn : ConnId) : Prop :=
  ∀ slot, e.slot k = some slot → slot.connState = conn

theorem Owned.of_local {e e' : Engine} {j k : Nat} {conn : ConnId} (h : Owned e k conn)
    (hlocal : Local j e e') : Owned e' k conn := by
  intro slot' hslot'
  rcases eq_or_ne k j with rfl | hne
  · obtain ⟨slot, hslot, hconn, -⟩ := hlocal.keeps slot' hslot'
    exact hconn.trans (h slot hslot)
  · exact h slot' ((hlocal.slots k hne).symm.trans hslot')

structure Inv (s : State × List ConnId) : Prop where
  incoming : ∀ h ∈ s.1.engine.incoming.items, Owned s.1.engine h.slot h.state
  connections : ∀ h ∈ s.1.handles.connections, Owned s.1.engine h.slot h.state
  sends : ∀ h ∈ s.1.handles.sends, Owned s.1.engine h.slot h.state
  commands : List.Forall₂ (fun cmd conn => Owned s.1.engine cmd.conn conn)
    s.1.engine.cmdQueue.items s.2

/-- Steps that neither touch handles nor commands keep the invariant when they keep
the owners of the slots that are named. -/
theorem Inv.of_owned (h : Inv (s, issuers))
    (hhandles : s'.handles = s.handles) (hincoming : s'.engine.incoming = s.engine.incoming)
    (hcmd : s'.engine.cmdQueue = s.engine.cmdQueue)
    (howned : ∀ k ∈ outstanding s, ∀ conn, Owned s.engine k conn → Owned s'.engine k conn) :
    Inv (s', issuers) where
  incoming c hc := by
    rw [hincoming] at hc
    exact howned c.slot (by simp [outstanding]; grind) c.state (h.incoming c hc)
  connections c hc := by
    rw [hhandles] at hc
    exact howned c.slot (by simp [outstanding]; grind) c.state (h.connections c hc)
  sends c hc := by
    rw [hhandles] at hc
    exact howned c.slot (by simp [outstanding]; grind) c.state (h.sends c hc)
  commands := by
    rw [hcmd]
    have hmem : ∀ cmd ∈ s.engine.cmdQueue.items, cmd.conn ∈ outstanding s := by
      intro cmd hcmd
      simp only [outstanding, mem_append, List.mem_map]
      exact .inr ⟨cmd, hcmd, rfl⟩
    refine ((forall₂_and_left _ _).mpr ⟨hmem, h.commands⟩).imp ?_
    rintro cmd conn ⟨hnamed, hown⟩
    exact howned cmd.conn hnamed conn hown

theorem Inv.of_local (h : Inv (s, issuers)) {j : Nat}
    (hhandles : s'.handles = s.handles) (hlocal : Local j s.engine s'.engine) :
    Inv (s', issuers) :=
  h.of_owned hhandles hlocal.incoming hlocal.cmdQueue fun _ _ _ hown => hown.of_local hlocal

theorem Inv.push (h : Inv (s, issuers))
    {cmd : TileAppCommand} {conn : ConnId} (hown : Owned s.engine cmd.conn conn) :
    Inv (s.send cmd, issue s conn issuers) := by
  refine { h with commands := ?_ }
  unfold issue State.send sendCmd
  rcases hpush : s.engine.cmdQueue.push cmd with _ | q
  · have hfull : ¬ s.engine.cmdQueue.items.length < s.engine.cmdQueue.capacity := by
      intro hroom
      simp [ArrayQueue.push, hroom] at hpush
    rw [if_neg hfull]
    exact h.commands
  · obtain ⟨hroom, -, hitems⟩ := push_eq_some hpush
    rw [if_pos hroom, getD_some, hitems]
    exact rel_append h.commands (.cons hown .nil)

theorem Inv.addConnection (h : Inv (s, issuers))
    (endpoint : Endpoint) (ch : Nat) (conn : Connection)
    (hlt : s.engine.connections.vacantKey < 2 ^ 32)
    (hfree : s.engine.connections.vacantKey ∉ outstanding s) :
    Inv ({ s with engine := Engine.addConnection { s.engine with endpoint } ch conn },
      issuers) := by
  have hslot := slot_addConnection { s.engine with endpoint } ch conn
  -- First without the new handle, which then joins the queue of new connections.
  have hkept : Inv ({ s with engine :=
      { Engine.addConnection { s.engine with endpoint } ch conn with
        incoming := s.engine.incoming } }, issuers) := by
    refine h.of_owned rfl rfl rfl ?_
    intro k hk c hown slot hs
    have hne : k ≠ s.engine.connections.vacantKey := fun heq => hfree (heq ▸ hk)
    exact hown slot (((hslot k).trans (if_neg hne)).symm.trans hs)
  refine { hkept with incoming := ?_ }
  have hnew : Owned (Engine.addConnection { s.engine with endpoint } ch conn)
      (s.engine.connections.vacantKey % 2 ^ 32) s.engine.nextConn := by
    intro slot hs
    rw [Nat.mod_eq_of_lt hlt, hslot, if_pos rfl] at hs
    cases hs
    rfl
  intro c hc
  change c ∈ ((s.engine.incoming.push _).getD s.engine.incoming).items at hc
  rcases hpush : s.engine.incoming.push
    ⟨s.engine.nextConn, s.engine.connections.vacantKey % 2 ^ 32⟩ with _ | q
  · rw [hpush] at hc
    exact hkept.incoming c hc
  · obtain ⟨-, -, hitems⟩ := push_eq_some hpush
    rw [hpush, getD_some, hitems, mem_append, mem_singleton] at hc
    rcases hc with hc | rfl
    · exact hkept.incoming c hc
    · exact hnew

theorem Inv.packet (h : Inv (s, issuers))
    (rxQueues : List (ArrayQueue Bytes)) (phase : Phase) {event : DatagramEvent} {replies : Replies}
    (hcond : NoReuse (s, issuers) (.receive event replies)) :
    Inv ({ s with engine := Engine.dispatch { s.engine with rxQueues } replies event, phase },
      issuers) := by
  have hpopped : Inv ({ s with engine := { s.engine with rxQueues } }, issuers) := { h with }
  obtain ⟨j, hmoves⟩ | ⟨_, ch, conn, endpoint, rfl, -, hdispatch⟩ :=
    dispatch_cases { s.engine with rxQueues } replies event
  · exact hpopped.of_local rfl (.of_moves hmoves)
  · rw [hdispatch]
    exact (hpopped.addConnection endpoint ch conn hcond.1 hcond.2).of_local rfl
      (Local.drainConnectionEvents _ _ _)

theorem Inv.command (h : Inv (s, issuers))
    (input : Engine.CommandInput) (phase : Phase) {cmd : TileAppCommand}
    {cmdQueue : ArrayQueue TileAppCommand} (hpop : s.engine.cmdQueue.pop = some (cmd, cmdQueue)) :
    Inv ({ s with engine := Engine.processCommand { s.engine with cmdQueue } input cmd, phase },
      issuers.tail) := by
  obtain ⟨-, hitems⟩ := pop_eq_some hpop
  have hcommands := h.commands
  rw [hitems, forall₂_cons_left_iff] at hcommands
  obtain ⟨_, others, -, hrest, hissuers⟩ := hcommands
  subst hissuers
  have hpopped : Inv ({ s with engine := { s.engine with cmdQueue } }, others) :=
    { h with commands := hrest }
  exact hpopped.of_local rfl (Local.processCommand _ input cmd)

theorem Inv.noCommand (h : Inv (s, issuers)) (didWork : Bool)
    (hpop : s.engine.cmdQueue.pop = none) : Inv (s.startTransmit didWork false, issuers.tail) := by
  have hcommands := h.commands
  rw [pop_eq_none hpop] at hcommands
  have hnil : issuers = [] := forall₂_nil_left_iff.mp hcommands
  subst hnil
  exact { h with }

theorem Inv.acceptStep (h : Inv (s, issuers)) (task : Task) : Inv (s.acceptStep task, issuers) := by
  unfold State.acceptStep App.accept
  rcases hpop : s.engine.incoming.pop with _ | ⟨_, _⟩
  · exact { h with }
  · obtain ⟨-, hitems⟩ := pop_eq_some hpop
    refine ⟨?_, ?_, h.sends, h.commands⟩
    · intro c hc
      exact h.incoming c (by rw [hitems]; exact mem_cons_of_mem _ hc)
    · intro c hc
      rcases mem_cons.mp hc with rfl | hc
      · exact h.incoming c (by rw [hitems]; exact mem_cons_self)
      · exact h.connections c hc

theorem Inv.step {a : Label} (h : Inv (s, issuers))
    (hcond : NoReuse (s, issuers) a) (hstep : s.step a = some s') :
    Inv (s', observeIssuers s a issuers) := by
  cases a with
  | arrive =>
    cases hstep
    unfold State.arrive
    split
    · exact h
    · exact { h with }
  | writerPops =>
    cases hstep
    unfold State.writerPops
    split
    · exact h
    · exact { h with }
  | runOnce =>
    simp only [State.step, ite_none_right_eq_some, some.injEq] at hstep
    obtain ⟨-, rfl⟩ := hstep
    exact { h with }
  | receive =>
    cases State.step_turn hstep with
    | packet => exact h.packet _ _ hcond
    | noPacket => exact { h with }
    | outside ha => cases ha
  | command input =>
    cases State.step_turn hstep with
    | command _ _ hpop => exact h.command input _ hpop
    | noCommand _ _ hpop => exact h.noCommand _ hpop
    | outside ha => cases ha
  | transmit input =>
    cases State.step_turn hstep with
    | transmit =>
      obtain ⟨k, hmoves⟩ := TileWork.work_transmitStep
        (p := .any) (fun _ _ => trivial) s _ _ _ _ input
      exact h.of_local (s.transmitStep_cases _ _ _ _ input).1 (.of_moves hmoves)
    | outside ha => cases ha
  | timer input replies =>
    cases State.step_turn hstep with
    | timer => exact h.of_local rfl (.of_moves (work_fireTimer _ _ input replies _))
    | lastTransmit | stop => exact { h with }
    | outside ha => cases ha
  | accept task =>
    cases hstep
    exact h.acceptStep task
  | acceptBi conn task | openBi conn task =>
    simp only [State.step, ite_none_right_eq_some, some.injEq] at hstep
    obtain ⟨hconn, rfl⟩ := hstep
    simp only [State.pollBiStep, App.acceptBi, App.openBi, pollBi]
    rcases pollStream _ (s.engine.conns conn.state) task with ⟨_ | _ | ⟨id, _⟩, state⟩
    · exact { h with }
    · exact { h with }
    · refine { h with sends := ?_ }
      intro c hc
      rcases mem_cons.mp hc with rfl | hc
      · exact h.connections conn hconn
      · exact h.sends c hc
  | sendOpen conn | sendClose conn =>
    simp only [State.step, ite_none_right_eq_some, some.injEq] at hstep
    obtain ⟨hconn, rfl⟩ := hstep
    exact h.push (h.connections conn hconn)
  | write stream buf =>
    simp only [State.step, ite_none_right_eq_some, some.injEq] at hstep
    obtain ⟨hstream, rfl⟩ := hstep
    have hpush : Inv (s.send (.write stream.slot stream.id buf false),
        issue s stream.state issuers) := h.push (h.sends stream hstream)
    unfold State.send sendCmd at hpush
    unfold App.pollWrite
    rcases hq : s.engine.cmdQueue.push (.write stream.slot stream.id buf false) with _ | q
    · rw [hq] at hpush
      exact { hpush with }
    · rw [hq] at hpush
      exact hpush
  | shutdown stream | sendReset stream code =>
    simp only [State.step, ite_none_right_eq_some, some.injEq] at hstep
    obtain ⟨hstream, rfl⟩ := hstep
    exact h.push (h.sends stream hstream)
  | finish stream =>
    simp only [State.step, ite_none_right_eq_some, some.injEq] at hstep
    obtain ⟨hstream, rfl⟩ := hstep
    have hpush : Inv (s.send (.finish stream.slot stream.id), issue s stream.state issuers) :=
      h.push (h.sends stream hstream)
    exact { hpush with sends := fun c hc => hpush.sends c (mem_of_mem_erase hc) }
  | read =>
    obtain ⟨⟨_, _, _⟩, hread, rfl⟩ := map_eq_some_iff.mp hstep
    obtain ⟨_, -, heq⟩ := map_eq_some_iff.mp hread
    cases heq
    exact { h with }
  | dropConnection =>
    cases hstep
    exact { h with connections := fun c hc => h.connections c (mem_of_mem_erase hc) }
  | dropSend =>
    cases hstep
    exact { h with sends := fun c hc => h.sends c (mem_of_mem_erase hc) }
  | dropRecv =>
    cases hstep
    exact { h with }

theorem inv_of_reachableVia {s : State × List ConnId} (hs : issued.ReachableVia NoReuse s) :
    Inv s := by
  refine hs.observed_invariant ?_ fun _ _ _ _ h hcond hstep => h.step hcond hstep
  rintro s ⟨config, networkTiles, rfl⟩
  exact ⟨by simp [State.initial, Engine.new, new],
    by simp [State.initial, Handles.none], by simp [State.initial, Handles.none], .nil⟩

/-- The command that is processed leaves all connections alone but its issuer's. -/
def Isolated (s s' : State × List ConnId) : Prop :=
  ∀ issuer ∈ s.2.head?, ∀ k slot, s.1.engine.slot k = some slot → slot.connState ≠ issuer →
    s'.1.engine.slot k = some slot

theorem command_isolated {s s' : State × List ConnId} {input : Engine.CommandInput}
    (hs : issued.ReachableVia NoReuse s) (hstep : issued.step s (.command input) = some s') :
    Isolated s s' := by
  intro issuer hissuer k slot hslot hother
  have hcommands := (inv_of_reachableVia hs).commands
  obtain ⟨issuers, hissuers⟩ : ∃ issuers, s.2 = issuer :: issuers :=
    head?_eq_some_iff.mp hissuer
  rw [hissuers, forall₂_cons_right_iff] at hcommands
  obtain ⟨cmd, _, hown, -, hitems⟩ := hcommands
  have hne : k ≠ cmd.conn := by
    rintro rfl
    exact hother (hown slot hslot)
  have hstep := (System.observed_step_eq_some hstep).1
  simp only [system, State.step] at hstep
  split at hstep
  · rw [← some.inj hstep]
    unfold State.commandStep
    split
    · rename_i hpop
      simp [pop_eq_none hpop] at hitems
    · rename_i cmd' rest' hpop
      obtain ⟨-, hitems'⟩ := pop_eq_some hpop
      rw [hitems'] at hitems
      cases hitems
      exact ((Local.processCommand _ input cmd).slots k hne).trans hslot
  · simp at hstep

/-! Fixed inputs for the runs below: clients that may be sent one stream. -/

def config : TransportConfig :=
  ⟨0, 0, 10, 10, 10, false⟩

def replies : Replies :=
  fun _ => .none

def initialPacket (frames : List Frame) : Decrypted where
  kind := .initial
  payloadLen := 1
  frames
  malformed := none
  authenticated := .none
  processed := .none
  peerParams := some (.ok (⟨0, 0, 0, 1, 0, 0⟩, 0))
  handshakeComplete := false

def datagram (packets : List PacketInput) : Connection.Datagram :=
  ⟨0, 0, true, packets, .none⟩

def newClient : DatagramEvent :=
  .newConnection (.initial false (initialPacket [.crypto false none]) (datagram []) [] ⟨[], 0⟩)

def freshOpen : List Label :=
  [.arrive 0 [0], .runOnce 0, .receive newClient replies, .arrive 0 [0],
    .receive newClient replies, .accept 0, .sendOpen ⟨0, 0⟩, .receive .nothing replies,
    .receive .nothing replies]

def reuseFree (s : State × List ConnId) : Label → Bool
  | .receive (.newConnection _) _ =>
    decide (s.1.engine.connections.vacantKey < 2 ^ 32 ∧
      s.1.engine.connections.vacantKey ∉ outstanding s.1)
  | _ => true

theorem noReuse_of_reuseFree (s : State × List ConnId) (a : Label) (h : reuseFree s a = true) :
    NoReuse s a := by
  unfold NoReuse
  split
  · simpa [reuseFree] using h
  · trivial

def streamsOpened (s : State) (k : Nat) : Option (ConnId × Nat) :=
  (s.engine.slot k).map fun slot => (slot.connState, slot.inner.streams.next .bi)

theorem freshOpen_isolated : ∃ s s', issued.ReachableVia NoReuse s ∧ s.2.head? = some 0 ∧
    streamsOpened s'.1 0 = some (0, 1) ∧ streamsOpened s.1 1 = some (1, 0) ∧ Isolated s s' := by
  obtain ⟨s, s', hrun, hstep, hissuer, hopened, hother⟩ : ∃ s s',
      issued.runChecked reuseFree (.initial config 1, []) freshOpen = some s ∧
      issued.step s (.command ⟨0, 0, replies⟩) = some s' ∧ s.2.head? = some 0 ∧
      streamsOpened s'.1 0 = some (0, 1) ∧ streamsOpened s.1 1 = some (1, 0) :=
    ⟨_, _, rfl, rfl, rfl, rfl, rfl⟩
  have hreach : issued.ReachableVia NoReuse s :=
    .of_runChecked noReuse_of_reuseFree (.initial ⟨⟨config, 1, rfl⟩, rfl⟩) hrun
  exact ⟨s, s', hreach, hissuer, hopened, hother, command_isolated hreach hstep⟩

/-- A client connects and closes, and another one connects; then the application
opens a stream with the handle of the first. -/
def staleOpen : List Label :=
  [.arrive 0 [0], .runOnce 0, .receive newClient replies, .accept 0, .arrive 0 [0],
    .receive (.forConnection 0 (datagram [.decrypted (initialPacket [.close false])])) replies,
    .arrive 0 [0], .receive newClient replies, .sendOpen ⟨0, 0⟩, .receive .nothing replies,
    .receive .nothing replies]

theorem staleOpen_streams : ∃ s s', issued.run (.initial config 1, []) staleOpen = some s ∧
    issued.step s (.command ⟨0, 0, replies⟩) = some s' ∧ s.2.head? = some 0 ∧
    streamsOpened s.1 0 = some (1, 0) ∧ streamsOpened s'.1 0 = some (1, 1) :=
  ⟨_, _, rfl, rfl, rfl, rfl, rfl⟩

theorem staleOpen_not_isolated : ∃ s s' input, issued.Reachable s ∧
    issued.step s (.command input) = some s' ∧ ¬ Isolated s s' := by
  obtain ⟨s, s', hrun, hstep, hissuer, hbefore, hafter⟩ := staleOpen_streams
  refine ⟨s, s', ⟨0, 0, replies⟩, .of_run (.initial ⟨⟨config, 1, rfl⟩, rfl⟩) hrun, hstep, ?_⟩
  intro h
  obtain ⟨slot, hslot, heq⟩ := map_eq_some_iff.mp hbefore
  have hother : slot.connState ≠ 0 := by simp [(Prod.mk.inj heq).1]
  have hkept := h 0 hissuer 0 slot hslot hother
  rw [streamsOpened, hkept, map_some, heq] at hafter
  simp at hafter

end Quac.HandleIsolation
