import Quac.WriteIntegrity

/-!
What happens to the application's commands when `cmd_queue` is full.
-/

namespace Quac.Backpressure

open App Bridge EngineSteps HandleIsolation Identifiers Lib.BoundedQueue Lib.Slabs
open Lib.Transition
open ProtoConnection hiding State
open StreamAccess Streams Tile TileEngine WriteIntegrity ArrayQueue System List

/-- A `poll_write` that was pending because of a full queue, and whether the engine has
popped a command since. -/
structure Stall where
  stream : SendStream
  task : Task
  popped : Bool

/-- The commands that the application passed on, those that the engine popped, and the
last stall of each cell. -/
structure History where
  passed : List TileAppCommand
  popped : List TileAppCommand
  stalls : List Stall

variable {s : State} {a : Label} {h : History} {dir : Dir}

def History.empty : History :=
  ⟨[], [], []⟩

namespace History

def pass (h : History) (cmd : TileAppCommand) : History :=
  { h with passed := h.passed ++ [cmd] }

def pop (h : History) (cmd : TileAppCommand) : History :=
  { h with
    popped := h.popped ++ [cmd]
    stalls := h.stalls.map fun stall => { stall with popped := true } }

/-- The waker of a cell holds the last task that was registered with it. -/
def stall (h : History) (stream : SendStream) (task : Task) : History :=
  { h with
    stalls := h.stalls.filter (fun stall => stall.stream.cell ≠ stream.cell) ++
      [⟨stream, task, false⟩] }

end History

def observeQueue (s : State) (a : Label) (h : History) : History :=
  match a with
  | .write stream buf task =>
    match (pollWrite s.engine stream buf task).1 with
    | some _ => h.pass (.write stream.slot stream.id buf false)
    | none => h.stall stream task
  | .command _ =>
    match s.engine.cmdQueue.items with
    | cmd :: _ => h.pop cmd
    | [] => h
  | a =>
    match a.issues with
    | some (_, cmd) => h.pass cmd
    | none => h

def history : System (State × History) Label :=
  system.observed .empty observeQueue

def alive (e : Engine) (stream : SendStream) : Bool :=
  (e.slot stream.slot).any fun slot =>
    slot.connState == stream.state && slot.streams stream.id == some stream.cell &&
      !slot.inner.state.isClosed

structure Served (s : State × History) : Prop where
  /-- No command is lost or overtaken. -/
  kept : s.2.passed = s.2.popped ++ s.1.engine.cmdQueue.items
  /-- No task waits for a place in the queue when there has been one. -/
  woken : ∀ stall ∈ s.2.stalls, stall.popped = true → alive s.1.engine stall.stream = true →
    (s.1.engine.cells stall.stream.cell).sendWaker ≠ some stall.task

/-- A command is issued only when the queue has a place for it. -/
def Room (s : State × History) (a : Label) : Prop :=
  a.issues.isSome → s.1.engine.cmdQueue.items.length < s.1.engine.cmdQueue.capacity

theorem observeQueue_of_room {conn : ConnId}
    {cmd : TileAppCommand} (hissues : a.issues = some (conn, cmd))
    (hroom : s.engine.cmdQueue.items.length < s.engine.cmdQueue.capacity) :
    observeQueue s a h = h.pass cmd := by
  cases a with
  | write stream buf =>
    cases hissues
    obtain ⟨q, hq, -⟩ := push_of_room hroom (.write stream.slot stream.id buf false)
    simp only [observeQueue, pollWrite, hq]
  | sendOpen | shutdown | finish | sendReset | sendClose =>
    cases hissues
    rfl
  | arrive | writerPops | runOnce | receive | command | transmit | timer | accept | acceptBi
  | openBi | read | dropConnection | dropSend | dropRecv => simp [Label.issues] at hissues

theorem observeQueue_of_silent (hissues : a.issues = none)
    (hcommand : ∀ input, a ≠ .command input) : observeQueue s a h = h := by
  cases a with
  | command input => exact absurd rfl (hcommand input)
  | sendOpen | write | shutdown | finish | sendReset | sendClose => simp [Label.issues] at hissues
  | arrive | writerPops | runOnce | receive | transmit | timer | accept | acceptBi | openBi | read
  | dropConnection | dropSend | dropRecv => rfl

theorem step_command_items {s' : State} {input : Engine.CommandInput}
    (h : s.step (.command input) = some s') :
    s'.engine.cmdQueue.items = s.engine.cmdQueue.items.tail := by
  simp only [State.step] at h
  split at h
  · rw [← Option.some.inj h]
    unfold State.commandStep
    split
    · rename_i hpop
      have hitems := pop_eq_none hpop
      change s.engine.cmdQueue.items = _
      rw [hitems]
      rfl
    · rename_i cmd rest hpop
      obtain ⟨-, hitems⟩ := pop_eq_some hpop
      rw [(Local.processCommand _ input cmd).cmdQueue, hitems]
      rfl
  · simp at h

structure Inv (s : State × History) : Prop where
  kept : s.2.passed = s.2.popped ++ s.1.engine.cmdQueue.items
  stalls : s.2.stalls = []

theorem Inv.step {s' : State} (hinv : Inv (s, h))
    (hroom : Room (s, h) a) (hstep : s.step a = some s') : Inv (s', observeQueue s a h) := by
  obtain ⟨hkept, hstalls⟩ := hinv
  rcases hissues : a.issues with _ | ⟨_, cmd⟩
  · by_cases hcommand : ∃ input, a = .command input
    · obtain ⟨input, rfl⟩ := hcommand
      have hitems := step_command_items hstep
      rcases hqueue : s.engine.cmdQueue.items with _ | ⟨cmd, _⟩
      · rw [hqueue] at hitems hkept
        simp only [observeQueue, hqueue]
        exact ⟨by rw [hitems]; exact hkept, hstalls⟩
      · rw [hqueue] at hitems hkept
        simp only [observeQueue, hqueue]
        refine ⟨?_, ?_⟩
        · rw [hitems]
          simpa [History.pop] using hkept
        · simpa [History.pop] using hstalls
    · have hother : ∀ input, a ≠ .command input := fun input ha => hcommand ⟨input, ha⟩
      rw [observeQueue_of_silent hissues hother]
      refine ⟨?_, hstalls⟩
      rw [step_cmdQueue hstep hissues hother]
      exact hkept
  · have hlt := hroom (by rw [hissues]; rfl)
    obtain ⟨q, hq, hitems, -⟩ := push_of_room hlt cmd
    rw [observeQueue_of_room hissues hlt]
    refine ⟨?_, hstalls⟩
    rw [step_push hstep hissues, hq]
    simp only [History.pass, Option.getD_some, hitems]
    rw [← append_assoc, ← hkept]

theorem served_of_room {s : State × History} (hs : history.ReachableVia Room s) : Served s := by
  have hinv : Inv s := by
    refine hs.observed_invariant ?_ fun _ _ _ _ hinv hroom hstep => hinv.step hroom hstep
    rintro s ⟨config, networkTiles, rfl⟩
    exact ⟨rfl, rfl⟩
  refine ⟨hinv.kept, ?_⟩
  rw [hinv.stalls]
  simp

def hasRoom (s : State × History) (a : Label) : Bool :=
  !a.issues.isSome || decide (s.1.engine.cmdQueue.items.length < s.1.engine.cmdQueue.capacity)

theorem openAndWrite_served : ∃ s, history.ReachableVia Room s ∧ s.2.passed.length = 2 ∧
    s.2.passed = s.2.popped ++ s.1.engine.cmdQueue.items := by
  have hinitial : history.ReachableVia Room (.initial config 1, .empty) :=
    .initial ⟨⟨config, 1, rfl⟩, rfl⟩
  refine hinitial.exists_of_runChecked (fun s a (h : hasRoom s a = true) hissues => ?_)
    (openAndWrite [1]) ?_
  · simpa [hasRoom, hissues] using h
  exact ⟨_, rfl, fun hreach => ⟨rfl, (served_of_room hreach).kept⟩⟩

section Waker

variable {k : Nat} {cell : CellId} {waker : AtomicWaker} {e e' : Engine} {p : Permit}

/-- A cell of none of the slot's streams, with what is registered there. -/
structure Foreign (k : Nat) (cell : CellId) (waker : AtomicWaker) (e : Engine) : Prop where
  lt : cell < e.nextCell
  streams : ∀ slot id, e.slot k = some slot → slot.streams id ≠ some cell
  sendWaker : (e.cells cell).sendWaker = waker

theorem Foreign.setCell (h : Foreign k cell waker e) {slot : ConnectionSlot} {id : StreamId}
    {other : CellId} (hslot : e.slot k = some slot) (hother : slot.streams id = some other)
    (value : StreamCell) : Foreign k cell waker (e.setCell other value) := by
  have hne : cell ≠ other := by
    rintro rfl
    exact h.streams slot id hslot hother
  refine ⟨h.lt, h.streams, ?_⟩
  simp only [Engine.setCell, Function.update_of_ne hne]
  exact h.sendWaker

theorem Foreign.setSlot (h : Foreign k cell waker e) {slot slot' : ConnectionSlot}
    (hslot : e.slot k = some slot) (hstreams : ∀ id, slot'.streams id ≠ some cell) :
    Foreign k cell waker (e.setSlot k slot') := by
  refine ⟨h.lt, fun s id hs => ?_, h.sendWaker⟩
  rw [slot_setSlot_self hslot] at hs
  cases hs
  exact hstreams id

theorem Foreign.move (h : Foreign k cell waker e) (hmove : Move p k e e') :
    Foreign k cell waker e' := by
  cases hmove with
  | @slot slot hslot => exact h.setSlot hslot fun id => h.streams slot id hslot
  | queued | endpoint | sent => exact ⟨h.lt, h.streams, h.sendWaker⟩
  | woken hslot hcell | delivered hslot hcell => exact h.setCell hslot hcell _
  | opened _ hslot id =>
    have hne : cell ≠ e.nextCell := Nat.ne_of_lt h.lt
    have hnew : Foreign k cell waker
        { e.setCell e.nextCell .new with nextCell := e.nextCell + 1 } := by
      refine ⟨Nat.lt_succ_of_lt h.lt, h.streams, ?_⟩
      simp only [Engine.setCell, Function.update_of_ne hne]
      exact h.sendWaker
    refine ⟨hnew.lt, fun s id' hs => ?_, hnew.sendWaker⟩
    have hs' := (slot_setSlot_self hslot _).symm.trans hs
    cases hs'
    simp only [Function.update_apply]
    split_ifs
    · exact fun hcell => hne (Option.some.inj hcell).symm
    · exact h.streams _ id' hslot
  | removed =>
    refine ⟨h.lt, fun s id hs => ?_, h.sendWaker⟩
    have hnone := (Slab.get_remove _ k k).symm.trans hs
    rw [if_pos rfl] at hnone
    cases hnone

theorem Foreign.moves (h : Foreign k cell waker e) (hmoves : Moves p k e e') :
    Foreign k cell waker e' := by
  induction hmoves with
  | refl => exact h
  | tail _ hmove ih => exact ih.move hmove

/-- A pop alone wakes no stalled writer: what the engine does for the command reaches only
the cells of the command's own connection. -/
theorem command_keeps_sendWaker {s' : State} {input : Engine.CommandInput}
    (hstep : s.step (.command input) = some s') (hlt : cell < s.engine.nextCell)
    (hother : ∀ cmd ∈ s.engine.cmdQueue.items.head?, ∀ slot id,
      s.engine.slot cmd.conn = some slot → slot.streams id ≠ some cell) :
    (s'.engine.cells cell).sendWaker = (s.engine.cells cell).sendWaker := by
  simp only [State.step] at hstep
  split at hstep
  · rw [← Option.some.inj hstep]
    unfold State.commandStep
    split
    · rfl
    · rename_i cmd rest hpop
      obtain ⟨-, hitems⟩ := pop_eq_some hpop
      have hforeign : Foreign cmd.conn cell (s.engine.cells cell).sendWaker
          { s.engine with cmdQueue := rest } := ⟨hlt, hother cmd (by rw [hitems]; rfl), rfl⟩
      exact (hforeign.moves (work_processCommand _ input cmd)).sendWaker
  · cases hstep

end Waker

/-! Calls of `open_bi` beyond what the peer allows fill the queue. -/

theorem run_sendOpen {conn : AppConnection} (n : Nat) (h : History)
    (hconn : conn ∈ s.handles.connections)
    (hroom : s.engine.cmdQueue.items.length + n ≤ s.engine.cmdQueue.capacity) :
    ∃ q : ArrayQueue TileAppCommand, q.capacity = s.engine.cmdQueue.capacity ∧
      q.items = s.engine.cmdQueue.items ++ replicate n (.openStream conn.slot .bi) ∧
      history.run (s, h) (replicate n (.sendOpen conn)) =
        some ({ s with engine := { s.engine with cmdQueue := q } },
          { h with passed := h.passed ++ replicate n (.openStream conn.slot .bi) }) := by
  induction n generalizing s h with
  | zero => exact ⟨s.engine.cmdQueue, rfl, by simp, by simp [run]⟩
  | succ _ ih =>
    have hlt : s.engine.cmdQueue.items.length < s.engine.cmdQueue.capacity := by omega
    obtain ⟨q, hq, hitems, hcapacity⟩ := push_of_room hlt (.openStream conn.slot .bi)
    have hstep : history.step (s, h) (.sendOpen conn) =
        some ({ s with engine := { s.engine with cmdQueue := q } },
          h.pass (.openStream conn.slot .bi)) := by
      simp [history, observed, system, State.step, hconn, State.send, sendCmd, hq,
        observeQueue, Label.issues]
    obtain ⟨q', hcapacity', hitems', hrun⟩ :=
      ih (s := { s with engine := { s.engine with cmdQueue := q } })
        (h.pass (.openStream conn.slot .bi)) hconn (by
          rw [hitems, hcapacity, length_append, length_singleton]
          omega)
    refine ⟨q', hcapacity'.trans hcapacity, ?_, ?_⟩
    · rw [hitems', hitems, append_assoc]
      rfl
    · rw [replicate_succ, run, hstep, Option.bind_some, hrun]
      simp [History.pass, replicate_succ]

def register (s : State) (stream : SendStream) (task : Task) : State :=
  { s with
    engine := s.engine.setCell stream.cell
      { s.engine.cells stream.cell with sendWaker := some task } }

theorem openStream_blocked {streams : StreamsState} (hmax : streams.max dir ≤ streams.next dir)
    (hblocked : streams.streamsBlocked dir = true) :
    openStream streams false dir = (none, streams) := by
  have hsame : Function.update streams.streamsBlocked dir true = streams.streamsBlocked := by
    rw [← hblocked]
    exact Function.update_eq_self dir _
  simp [openStream, hmax, hsame]

def Blocked (e : Engine) (k : Nat) (dir : Dir) : Prop :=
  ∃ slot, e.slot k = some slot ∧ slot.inner.state.isClosed = false ∧
    slot.inner.streams.max dir ≤ slot.inner.streams.next dir ∧
    slot.inner.streams.streamsBlocked dir = true

theorem processCommand_blocked {e : Engine} {k : Nat} (h : Blocked e k dir)
    (input : Engine.CommandInput) : e.processCommand input (.openStream k dir) = e := by
  obtain ⟨slot, hslot, hclosed, hmax, hblocked⟩ := h
  have hset : e.connections.set k slot = e.connections := Slab.set_self hslot
  simp only [Engine.processCommand, hslot, hclosed, openStream_blocked hmax hblocked,
    Engine.setInner, Engine.setSlot]
  rw [hset]

theorem run_blocked {k : Nat} (input : Engine.CommandInput) (n : Nat) (h : History)
    (hphase : s.phase = .commands true) (hblocked : Blocked s.engine k dir)
    (hitems : s.engine.cmdQueue.items = replicate n (.openStream k dir)) :
    ∃ (q : ArrayQueue TileAppCommand) (h' : History), q.items = [] ∧
      q.capacity = s.engine.cmdQueue.capacity ∧ h'.passed = h.passed ∧
      h'.popped.length = h.popped.length + n ∧
      (∀ stall ∈ h.stalls, stall.popped = true ∨ 0 < n →
        { stall with popped := true } ∈ h'.stalls) ∧
      history.run (s, h) (replicate n (.command input)) =
        some ({ s with engine := { s.engine with cmdQueue := q } }, h') := by
  induction n generalizing s h with
  | zero =>
    refine ⟨s.engine.cmdQueue, h, hitems, rfl, rfl, rfl, ?_, rfl⟩
    rintro ⟨stream, task, _⟩ hmem (rfl | hpos)
    · exact hmem
    · exact absurd hpos (lt_irrefl 0)
  | succ _ ih =>
    obtain ⟨cmd, q, hpop⟩ : ∃ cmd q, s.engine.cmdQueue.pop = some (cmd, q) := by
      rcases hpop : s.engine.cmdQueue.pop with _ | ⟨cmd, q⟩
      · rw [pop_eq_none hpop] at hitems
        simp at hitems
      · exact ⟨cmd, q, rfl⟩
    obtain ⟨hcapacity, hcons⟩ := pop_eq_some hpop
    rw [hitems, replicate_succ, cons.injEq] at hcons
    obtain ⟨rfl, hrest⟩ := hcons
    have hsame : Engine.processCommand { s.engine with cmdQueue := q } input
        (.openStream k dir) = { s.engine with cmdQueue := q } :=
      processCommand_blocked (e := { s.engine with cmdQueue := q }) hblocked input
    have hstep : history.step (s, h) (.command input) =
        some ({ s with engine := { s.engine with cmdQueue := q } }, h.pop (.openStream k dir)) := by
      simp [history, observed, system, State.step, hphase, State.commandStep, hpop,
        hsame, observeQueue, hitems, replicate_succ]
    obtain ⟨q', h', hempty, hcapacity', hpassed, hpopped, hstalls, hrun⟩ :=
      ih (s := { s with engine := { s.engine with cmdQueue := q } })
        (h.pop (.openStream k dir)) hphase hblocked hrest.symm
    refine ⟨q', h', hempty, hcapacity'.trans hcapacity, hpassed, ?_, ?_, ?_⟩
    · rw [hpopped, History.pop, length_append, length_singleton]
      omega
    · intro stall hmem _
      exact hstalls { stall with popped := true } (mem_map_of_mem hmem) (.inl rfl)
    · rw [replicate_succ, run, hstep, Option.bind_some, hrun]

def openTwo : List Label :=
  openFirst ++ [.sendOpen ⟨0, 0⟩, .command commandInput]

def endRunOnce : List Label :=
  [.command commandInput, .transmit transmitNothing, .transmit transmitNothing,
    .transmit transmitNothing, .timer ⟨(⟨[], [], [], [], false, false⟩, .none), 0⟩ replies,
    .transmit transmitNothing]

theorem openTwo_blocked : ∃ s h, history.run (.initial config 1, .empty) openTwo = some (s, h) ∧
    s.phase = .commands true ∧ s.engine.cmdQueue = .new cmdQueueCap ∧
    ⟨0, 0⟩ ∈ s.handles.connections ∧ firstSend ∈ s.handles.sends ∧ Blocked s.engine 0 .bi ∧
    h.passed.length = h.popped.length ∧
    ∀ h', ∃ s', history.run (register s firstSend 0, h') endRunOnce = some (s', h') ∧
      s'.phase = .idle ∧ s'.engine.cmdQueue.items = [] ∧ alive s'.engine firstSend = true ∧
      (s'.engine.cells 0).sendWaker = some 0 :=
  ⟨_, _, rfl, rfl, rfl, by decide, by decide, ⟨_, rfl, rfl, by decide, rfl⟩, rfl,
    fun _ => ⟨_, rfl, rfl, rfl, rfl, rfl⟩⟩

def overrun : List Label :=
  openTwo ++ (List.replicate cmdQueueCap (.sendOpen ⟨0, 0⟩) ++ (.sendOpen ⟨0, 0⟩ ::
    .write firstSend [1] 0 :: (List.replicate cmdQueueCap (.command commandInput) ++ endRunOnce)))

/-- The engine is idle and the queue empty, but the writer still waits and a command
is missing. -/
theorem overrun_strands : ∃ s, history.Reachable s ∧ s.1.phase = .idle ∧
    s.1.engine.cmdQueue.items = [] ∧ s.2.popped.length < s.2.passed.length ∧
    ⟨firstSend, 0, true⟩ ∈ s.2.stalls ∧ alive s.1.engine firstSend = true ∧
    (s.1.engine.cells firstSend.cell).sendWaker = some 0 := by
  obtain ⟨s, h, hopen, hphase, hqueue, hconn, hsend, hblocked, _, hend⟩ := openTwo_blocked
  have hcapacity : s.engine.cmdQueue.capacity = cmdQueueCap := by rw [hqueue]; rfl
  have hnone : s.engine.cmdQueue.items = [] := by rw [hqueue]; rfl
  obtain ⟨q, hcap, hitems, hfill⟩ :=
    run_sendOpen cmdQueueCap h hconn (by rw [hnone, hcapacity]; exact le_of_eq (zero_add _))
  rw [hnone, nil_append] at hitems
  have hfull : q.items.length = q.capacity := by
    rw [hitems, length_replicate, hcap, hcapacity]
  -- The open that is lost and the write that stalls.
  obtain ⟨t, ht⟩ : ∃ t : State, t = { s with engine := { s.engine with cmdQueue := q } } :=
    ⟨_, rfl⟩
  obtain ⟨g, hg⟩ : ∃ g : History,
    g = { h with passed := h.passed ++ replicate cmdQueueCap (.openStream 0 .bi) } := ⟨_, rfl⟩
  have hpush : ∀ cmd, q.push cmd = none := fun _ => dif_neg (lt_irrefl _ <| hfull ▸ ·)
  have hlost : history.step (t, g) (.sendOpen ⟨0, 0⟩) = some (t, g.pass (.openStream 0 .bi)) := by
    simp [history, observed, system, State.step, ht, hconn, State.send, sendCmd, hpush,
      observeQueue, Label.issues]
  have hstalled : history.step (t, g.pass (.openStream 0 .bi)) (.write firstSend [1] 0) =
      some (register t firstSend 0, (g.pass (.openStream 0 .bi)).stall firstSend 0) := by
    simp [history, observed, system, State.step, ht, hsend, pollWrite, hpush, observeQueue,
      register]
  -- The engine takes everything that is there.
  have hwaiting : Blocked (register t firstSend 0).engine 0 .bi := by rw [ht]; exact hblocked
  obtain ⟨q', h', hempty, hcap', hpassed, hpopped, hstalls, hdrain⟩ :=
    run_blocked commandInput cmdQueueCap ((g.pass (.openStream 0 .bi)).stall firstSend 0)
      (by rw [ht]; exact hphase) hwaiting (by rw [ht]; exact hitems)
  have hq' : q' = s.engine.cmdQueue := by
    apply ArrayQueue.ext
    · rw [hcap', ht]
      exact hcap
    · rw [hempty, hnone]
  obtain ⟨s', hrun, hidle, hdone, halive, hwaker⟩ := hend h'
  have hrest : history.run (register t firstSend 0, (g.pass (.openStream 0 .bi)).stall firstSend 0)
      (replicate cmdQueueCap (.command commandInput) ++ endRunOnce) = some (s', h') := by
    rw [run_append hdrain, ← hrun, hq', ht]
    rfl
  have hall : history.run (.initial config 1, .empty) overrun = some (s', h') := by
    rw [overrun, run_append hopen, run_append hfill, run, ← hg, ← ht, hlost,
      Option.bind_some, run, hstalled, Option.bind_some, hrest]
  refine ⟨(s', h'), .of_run (.initial ⟨⟨config, 1, rfl⟩, rfl⟩) hall, hidle, hdone, ?_, ?_, halive,
    hwaker⟩
  · rw [hpassed, hpopped, hg]
    simp only [History.stall, History.pass, length_append, length_replicate,
      length_singleton]
    omega
  · refine hstalls ⟨firstSend, 0, false⟩ ?_ (.inr (by decide))
    simp [History.stall]

end Quac.Backpressure
