import Quac.EngineSteps
import Quac.Tile

/-!
The connection that a step of the engine works on, and how the step goes on from
there.
-/

namespace Quac.TileWork

open Bridge EngineSteps Identifiers
open ProtoConnection hiding State
open ProtoEndpoint Tile TileEngine Engine Option

variable {s s' : State} {a : Label}

theorem work_transmitStep {p : Permit}
    (hp : ∀ (c : Connection) input, p.inner c (c.pollTransmit input).2) (s : State)
    (current : Option (Nat × Bool)) (todo : List Nat) (didWork last : Bool)
    (input : Connection.TransmitInput) :
    ∃ k, Moves p k s.engine (s.transmitStep current todo didWork last input).engine := by
  obtain ⟨-, heq | ⟨k, heq⟩ | ⟨k, firstPoll, heq⟩⟩ :=
    s.transmitStep_cases current todo didWork last input
  · exact ⟨0, heq ▸ .refl⟩
  · exact ⟨k, heq ▸ moves_beginTransmit k⟩
  · exact ⟨k, heq ▸ moves_transmitOnce (fun c => hp c _) firstPoll k⟩

/-- The connection that a step drains: its slot, the cells of its streams, and its
state when the input has been handled and no event been drained.  For a command it is
the state before the command. -/
structure Work where
  slotIdx : Nat
  streams : StreamId → Option CellId
  inner : Connection

variable {w : Work}

def hasPacket (s : State) : Bool :=
  match s.phase with
  | .receive queue _ => (s.engine.rxQueues[queue]?).any fun q => q.pop.isSome
  | _ => false

def work (s : State) : Label → Option Work
  | .receive (.forConnection ch d) _ =>
    if hasPacket s then do
      let k ← s.engine.chToSlot ch
      let slot ← s.engine.slot k
      some ⟨k, slot.streams, slot.inner.handleDatagram d⟩
    else none
  | .receive (.newConnection incoming) _ =>
    if hasPacket s then
      match s.engine.endpoint.accept s.engine.serverConfig incoming with
      | (.ok (_, conn), _) => some ⟨s.engine.connections.vacantKey, fun _ => none, conn⟩
      | (.error _, _) => none
    else none
  | .command _ =>
    match s.phase, s.engine.cmdQueue.pop with
    | .commands _, some (cmd, _) => do
      let slot ← s.engine.slot cmd.conn
      some ⟨cmd.conn, slot.streams, slot.inner⟩
    | _, _ => none
  | .timer input _ =>
    match s.phase with
    | .timers (k :: _) _ => do
      let slot ← s.engine.slot k
      some ⟨k, slot.streams, slot.inner.handleTimeout s.now input⟩
    | _ => none
  | _ => none

theorem work_cases (hw : work s a = some w) :
    (∃ slot, s.engine.slot w.slotIdx = some slot ∧ w.streams = slot.streams ∧
      ((∃ d, w.inner = slot.inner.handleDatagram d) ∨
        (∃ now input, w.inner = slot.inner.handleTimeout now input) ∨ w.inner = slot.inner)) ∨
    ∃ incoming ch endpoint, w.streams = (fun _ => none) ∧
      s.engine.endpoint.accept s.engine.serverConfig incoming = (.ok (ch, w.inner), endpoint) := by
  unfold work at hw
  split at hw
  · simp only [ite_none_right_eq_some, bind_eq_bind, bind_eq_some_iff,
      some.injEq] at hw
    obtain ⟨-, k, -, slot, hslot, rfl⟩ := hw
    exact .inl ⟨slot, hslot, rfl, .inl ⟨_, rfl⟩⟩
  · split_ifs at hw
    split at hw
    · rename_i haccept
      cases hw
      exact .inr ⟨_, _, _, rfl, haccept⟩
    · cases hw
  · split at hw
    · simp only [bind_eq_bind, bind_eq_some_iff, some.injEq] at hw
      obtain ⟨slot, hslot, rfl⟩ := hw
      exact .inl ⟨slot, hslot, rfl, .inr (.inr rfl)⟩
    · cases hw
  · split at hw
    · simp only [bind_eq_bind, bind_eq_some_iff, some.injEq] at hw
      obtain ⟨slot, hslot, rfl⟩ := hw
      exact .inl ⟨slot, hslot, rfl, .inr (.inl ⟨_, _, rfl⟩)⟩
    · cases hw
  · cases hw

structure Worked (e : Engine) (w : Work) (e' : Engine) : Prop where
  occupied : ∃ slot, e'.slot w.slotIdx = some slot ∧ slot.streams = w.streams ∧ slot.inner = w.inner
  others : ∀ k, k ≠ w.slotIdx → e'.slot k = e.slot k
  cells : e'.cells = e.cells
  nextCell : e'.nextCell = e.nextCell

theorem worked_act {e : Engine} {k : Nat} {slot : ConnectionSlot} (hslot : e.slot k = some slot)
    (inner : Connection) :
    Worked e ⟨k, slot.streams, inner⟩ ((e.setInner k slot inner).markPendingSend k) := by
  have hset := slot_setSlot_self hslot { slot with inner }
  unfold markPendingSend setInner
  rw [hset]
  dsimp only
  split_ifs
  · exact ⟨⟨_, hset, rfl, rfl⟩, fun j hj => slot_setSlot_of_ne _ hj, rfl, rfl⟩
  · refine ⟨⟨_, slot_setSlot_self hset _, rfl, rfl⟩, fun j hj => ?_, rfl, rfl⟩
    exact (slot_setSlot_of_ne _ hj).trans (slot_setSlot_of_ne _ hj)

theorem worked_addConnection (e : Engine) (endpoint : Endpoint) (ch : Nat) (conn : Connection) :
    Worked e ⟨e.connections.vacantKey, fun _ => none, conn⟩
      (addConnection { e with endpoint } ch conn) := by
  refine ⟨⟨_, (slot_addConnection { e with endpoint } ch conn _).trans (if_pos rfl), rfl, rfl⟩,
    fun j hj => ?_, rfl, rfl⟩
  exact (slot_addConnection { e with endpoint } ch conn j).trans (if_neg hj)

theorem step_receive {event : DatagramEvent} {replies : Replies}
    (h : s.step (.receive event replies) = some s') :
    hasPacket s = true ∧ (∃ rxQueues,
      s'.engine = dispatch { s.engine with rxQueues } replies event) ∨
    hasPacket s = false ∧ s'.engine = s.engine := by
  cases State.step_turn h with
  | packet _ _ hphase hq hpop => exact .inl ⟨by simp [hasPacket, hphase, hq, hpop], _, rfl⟩
  | @noPacket queue _ _ _ _ hphase hq =>
    refine .inr ⟨?_, rfl⟩
    simp only [hasPacket, hphase]
    rcases hqueue : s.engine.rxQueues[queue]? with _ | q
    · rfl
    · simp [hq q hqueue]
  | outside ha => cases ha

/-- A packet or a timer is handled, and then the connection drained. -/
theorem step_drains (hcommand : ∀ input, a ≠ .command input)
    (hw : work s a = some w) (h : s.step a = some s') :
    ∃ replies e, Worked s.engine w e ∧ s'.engine = drainConnectionEvents replies e w.slotIdx := by
  cases a with
  | receive event replies =>
    obtain ⟨hpacket, rxQueues, heq⟩ | ⟨hnone, -⟩ := step_receive h
    · cases event with
      | forConnection _ d =>
        simp only [work, hpacket, if_true, bind_eq_bind, bind_eq_some_iff,
          some.injEq] at hw
        obtain ⟨k, hk, slot, hslot, rfl⟩ := hw
        have hslot' : Engine.slot { s.engine with rxQueues } k = some slot := hslot
        have hworked := worked_act hslot' (slot.inner.handleDatagram d)
        refine ⟨replies, _, { hworked with }, ?_⟩
        simp only [heq, dispatch, hk, hslot']
      | newConnection =>
        simp only [work, hpacket, if_true] at hw
        split at hw
        · rename_i ch conn endpoint haccept
          cases hw
          have hworked := worked_addConnection { s.engine with rxQueues } endpoint ch conn
          refine ⟨replies, _, { hworked with }, ?_⟩
          simp only [heq, dispatch, haccept]
        · cases hw
      | response | nothing => cases hw
    · cases event <;> simp [work, hnone] at hw
  | command input => exact absurd rfl (hcommand input)
  | timer input replies =>
    simp only [work] at hw
    split at hw
    · rename_i k due didWork hphase
      simp only [bind_eq_bind, bind_eq_some_iff, some.injEq] at hw
      obtain ⟨slot, hslot, rfl⟩ := hw
      simp only [State.step, hphase, State.timerStep, some.injEq] at h
      refine ⟨replies, _, worked_act hslot (slot.inner.handleTimeout s.now input), ?_⟩
      rw [← h]
      simp only [fireTimer, hslot]
    · cases hw
  | _ => cases hw

theorem step_processes {input : Engine.CommandInput} (hw : work s (.command input) = some w)
    (h : s.step (.command input) = some s') :
    ∃ cmd cmdQueue slot, s.engine.cmdQueue.pop = some (cmd, cmdQueue) ∧
      s.engine.slot cmd.conn = some slot ∧ w = ⟨cmd.conn, slot.streams, slot.inner⟩ ∧
      s'.engine = processCommand { s.engine with cmdQueue } input cmd := by
  simp only [work] at hw
  split at hw
  · rename_i didWork cmd rest hphase hpop
    simp only [bind_eq_bind, bind_eq_some_iff, some.injEq] at hw
    obtain ⟨slot, hslot, rfl⟩ := hw
    simp only [State.step, hphase, State.commandStep, hpop, some.injEq] at h
    exact ⟨cmd, rest, slot, hpop, hslot, rfl, h ▸ rfl⟩
  · cases hw

theorem step_of_work (hw : work s a = some w) (h : s.step a = some s') :
    (∃ replies e, Worked s.engine w e ∧ s'.engine = drainConnectionEvents replies e w.slotIdx) ∨
    ∃ input cmd cmdQueue slot, s.engine.slot cmd.conn = some slot ∧
      w = ⟨cmd.conn, slot.streams, slot.inner⟩ ∧
      s'.engine = processCommand { s.engine with cmdQueue } input cmd := by
  by_cases hcommand : ∃ input, a = .command input
  · obtain ⟨input, rfl⟩ := hcommand
    obtain ⟨cmd, cmdQueue, slot, -, hslot, hwork, heq⟩ := step_processes hw h
    exact .inr ⟨input, cmd, cmdQueue, slot, hslot, hwork, heq⟩
  · exact .inl (step_drains (fun input ha => hcommand ⟨input, ha⟩) hw h)

theorem processCommand_vacant {e : Engine} (input : Engine.CommandInput) {cmd : TileAppCommand}
    (hslot : e.slot cmd.conn = none) : e.processCommand input cmd = e := by
  cases cmd with
  | openStream conn =>
    have hslot : e.slot conn = none := hslot
    simp only [processCommand, hslot]
  | write conn | finish conn | resetStream conn | closeConn conn =>
    have hslot : e.slot conn = none := hslot
    simp only [processCommand, withSlot, hslot, drainConnectionEvents]

theorem step_of_noWork (hw : work s a = none) (h : s.step a = some s') :
    s'.engine.connections = s.engine.connections ∨ ∃ k, Moves .sends k s.engine s'.engine := by
  cases State.step_turn h with
  | transmit input =>
    exact .inr (work_transmitStep (p := .sends) (fun _ input => ⟨input, rfl⟩) s _ _ _ _ input)
  | outside _ houtside => exact .inl houtside.same.connections
  | writerPops => exact .inl s.writerPops_sameConnections.connections
  | @packet queue _ _ rest _ event replies hphase hq hpop =>
    left
    have hpacket : hasPacket s = true := by simp [hasPacket, hphase, hq, hpop]
    obtain hanswered | ⟨ch, d, k, rfl, hk, hwork⟩ |
        ⟨incoming, ch, conn, endpoint, rfl, haccept, -⟩ :=
      dispatch_work { s.engine with rxQueues := s.engine.rxQueues.set queue rest } replies event
    · exact hanswered.connections
    · have hk' : s.engine.chToSlot ch = some k := hk
      rcases hslot : s.engine.slot k with _ | slot
      · have hslot' : slot
            { s.engine with rxQueues := s.engine.rxQueues.set queue rest } k = none := hslot
        simp only [hwork, hslot', drainConnectionEvents]
      · simp [work, hpacket, hk', hslot] at hw
    · have haccept' : s.engine.endpoint.accept s.engine.serverConfig incoming =
          (.ok (ch, conn), endpoint) := haccept
      simp [work, hpacket, haccept'] at hw
  | @command _ cmd cmdQueue input hphase hpop =>
    left
    have hslot : s.engine.slot cmd.conn = none :=
      eq_none_iff_forall_ne_some.mpr (by simpa [work, hphase, hpop] using hw)
    have hslot' : slot { s.engine with cmdQueue } cmd.conn = none := hslot
    simp only [processCommand_vacant input hslot']
  | @timer k _ _ _ _ hphase =>
    left
    have hslot : s.engine.slot k = none :=
      eq_none_iff_forall_ne_some.mpr (by simpa [work, hphase] using hw)
    simp only [fireTimer, hslot, drainConnectionEvents]
  | noPacket | noCommand | lastTransmit | stop | runOnce => exact .inl rfl

end Quac.TileWork
