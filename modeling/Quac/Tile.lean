import Quac.App

/-!
An engine tile and its application.  `run_once` is split at each packet, command,
datagram sent and slot whose timers fire; the application, the network tiles and
the writer may come in between.  Labels carry what the unmodelled parts decide.
-/

namespace Quac.Tile

open App Bridge Identifiers Lib.BoundedQueue Lib.Transition ProtoConnection TileEngine Option

/-- Where `run_once` stands.  `current` is the slot that `drive_transmit` polls and
whether it has not been polled yet; `last` tells the second call from the first. -/
inductive Phase
  | idle
  | receive (queue : Nat) (didWork : Bool)
  | commands (didWork : Bool)
  | transmit (current : Option (Nat × Bool)) (todo : List Nat) (didWork last : Bool)
  | timers (due : List Nat) (didWork : Bool)
deriving DecidableEq

structure State where
  engine : Engine
  handles : Handles
  phase : Phase
  /-- The instant that `run_once` was given. -/
  now : Instant

inductive Label
  | arrive (queue : Nat) (payload : Bytes)
  | writerPops
  | runOnce (now : Instant)
  | receive (event : DatagramEvent) (replies : Replies)
  | command (input : Engine.CommandInput)
  | transmit (input : Connection.TransmitInput)
  | timer (input : Connection.TimeoutInput) (replies : Replies)
  | accept (task : Task)
  | acceptBi (conn : AppConnection) (task : Task)
  | sendOpen (conn : AppConnection)
  | openBi (conn : AppConnection) (task : Task)
  | write (stream : SendStream) (buf : Bytes) (task : Task)
  | shutdown (stream : SendStream)
  | finish (stream : SendStream)
  | read (index remaining : Nat) (task : Task)
  | dropConnection (conn : AppConnection)
  | dropSend (stream : SendStream)
  | dropRecv (stream : RecvStream)
  /-- The commands that only a direct user of `ConnState::send_cmd` can send. -/
  | sendReset (stream : SendStream) (code : Nat)
  | sendClose (conn : AppConnection)

/-- The command that a step of the application sends, and the connection of the
handle it uses. -/
def Label.issues : Label → Option (ConnId × TileAppCommand)
  | .sendOpen conn => some (conn.state, .openStream conn.slot .bi)
  | .write stream buf _ => some (stream.state, .write stream.slot stream.id buf false)
  | .shutdown stream | .finish stream => some (stream.state, .finish stream.slot stream.id)
  | .sendReset stream code => some (stream.state, .resetStream stream.slot stream.id code)
  | .sendClose conn => some (conn.state, .closeConn conn.slot)
  | _ => none

namespace State

def initial (config : TransportConfig) (networkTiles : Nat) : State :=
  ⟨.new config networkTiles, .none, .idle, 0⟩

def receiveStep (s : State) (queue : Nat) (didWork : Bool) (event : DatagramEvent)
    (replies : Replies) : State :=
  match s.engine.rxQueues[queue]? with
  | none => { s with phase := .commands didWork }
  | some q =>
    match q.pop with
    | none => { s with phase := .receive (queue + 1) didWork }
    | some (_, q) =>
      { s with
        engine := Engine.dispatch
          { s.engine with rxQueues := s.engine.rxQueues.set queue q } replies event
        phase := .receive queue true }

def startTransmit (s : State) (didWork last : Bool) : State :=
  { s with
    engine := { s.engine with pendingSend := [] }
    phase := .transmit none s.engine.pendingSend didWork last }

def commandStep (s : State) (didWork : Bool) (input : Engine.CommandInput) : State :=
  match s.engine.cmdQueue.pop with
  | none => s.startTransmit didWork false
  | some (cmd, cmdQueue) =>
    { s with
      engine := Engine.processCommand { s.engine with cmdQueue } input cmd
      phase := .commands true }

def transmitStep (s : State) (current : Option (Nat × Bool)) (todo : List Nat)
    (didWork last : Bool) (input : Connection.TransmitInput) : State :=
  match current, todo with
  | some (slotIdx, firstPoll), todo =>
    match s.engine.transmitOnce { input with now := s.now } firstPoll slotIdx with
    | (true, engine) =>
      { s with engine, phase := .transmit (some (slotIdx, false)) todo true last }
    | (false, engine) => { s with engine, phase := .transmit none todo didWork last }
  | none, slotIdx :: todo =>
    if (s.engine.slot slotIdx).isSome then
      { s with
        engine := s.engine.beginTransmit slotIdx
        phase := .transmit (some (slotIdx, true)) todo didWork last }
    else { s with phase := .transmit none todo didWork last }
  | none, [] =>
    if last then { s with phase := .idle }
    else { s with phase := .timers (s.engine.dueSlots s.now)
                    (didWork || !(s.engine.dueSlots s.now).isEmpty) }

def timerStep (s : State) (due : List Nat) (didWork : Bool) (input : Connection.TimeoutInput)
    (replies : Replies) : State :=
  match due with
  | slotIdx :: due =>
    { s with
      engine := s.engine.fireTimer s.now input replies slotIdx
      phase := .timers due didWork }
  | [] => if didWork then s.startTransmit true true else { s with phase := .idle }

def arrive (s : State) (queue : Nat) (payload : Bytes) : State :=
  match s.engine.rxQueues[queue]? with
  | none => s
  | some q =>
    { s with engine := { s.engine with
        rxQueues := s.engine.rxQueues.set queue ((q.push payload).getD q) } }

def writerPops (s : State) : State :=
  match s.engine.txQueue.pop with
  | none => s
  | some (_, txQueue) => { s with engine := { s.engine with txQueue } }

/-- A step of the application with one of its handles. -/
def send (s : State) (cmd : TileAppCommand) : State :=
  { s with engine := sendCmd s.engine cmd }

def acceptStep (s : State) (task : Task) : State :=
  match App.accept s.engine task with
  | (some conn, engine) =>
    { s with engine, handles := { s.handles with connections := conn :: s.handles.connections } }
  | (none, engine) => { s with engine }

def pollBiStep (s : State) (poll : Engine → Handles → AppConnection → Task → Engine × Handles)
    (conn : AppConnection) (task : Task) : State :=
  let (engine, handles) := poll s.engine s.handles conn task
  { s with engine, handles }

def step (s : State) : Label → Option State
  | .arrive queue payload => some (s.arrive queue payload)
  | .writerPops => some s.writerPops
  | .runOnce now =>
    if s.phase = .idle then some { s with phase := .receive 0 false, now } else none
  | .receive event replies =>
    match s.phase with
    | .receive queue didWork => some (s.receiveStep queue didWork event replies)
    | _ => none
  | .command input =>
    match s.phase with
    | .commands didWork => some (s.commandStep didWork input)
    | _ => none
  | .transmit input =>
    match s.phase with
    | .transmit current todo didWork last => some (s.transmitStep current todo didWork last input)
    | _ => none
  | .timer input replies =>
    match s.phase with
    | .timers due didWork => some (s.timerStep due didWork input replies)
    | _ => none
  | .accept task => some (s.acceptStep task)
  | .acceptBi conn task =>
    if conn ∈ s.handles.connections then some (s.pollBiStep App.acceptBi conn task) else none
  | .sendOpen conn =>
    if conn ∈ s.handles.connections then some (s.send (.openStream conn.slot .bi)) else none
  | .openBi conn task =>
    if conn ∈ s.handles.connections then some (s.pollBiStep App.openBi conn task) else none
  | .write stream buf task =>
    if stream ∈ s.handles.sends then
      some { s with engine := (pollWrite s.engine stream buf task).2 }
    else none
  | .shutdown stream =>
    if stream ∈ s.handles.sends then some { s with engine := App.finish s.engine stream } else none
  | .finish stream =>
    if stream ∈ s.handles.sends then
      some { s with
        engine := App.finish s.engine stream
        handles := { s.handles with sends := s.handles.sends.erase stream } }
    else none
  | .read index remaining task =>
    (readStream s.engine s.handles index remaining task).map fun (_, engine, handles) =>
      { s with engine, handles }
  | .dropConnection conn =>
    some { s with handles := { s.handles with connections := s.handles.connections.erase conn } }
  | .dropSend stream =>
    some { s with handles := { s.handles with sends := s.handles.sends.erase stream } }
  | .dropRecv stream =>
    some { s with handles := { s.handles with recvs := s.handles.recvs.erase stream } }
  | .sendReset stream code =>
    if stream ∈ s.handles.sends then
      some (s.send (.resetStream stream.slot stream.id code))
    else none
  | .sendClose conn =>
    if conn ∈ s.handles.connections then some (s.send (.closeConn conn.slot)) else none

end State

theorem State.transmitStep_cases (s : State) (current : Option (Nat × Bool)) (todo : List Nat)
    (didWork last : Bool) (input : Connection.TransmitInput) :
    (s.transmitStep current todo didWork last input).handles = s.handles ∧
      ((s.transmitStep current todo didWork last input).engine = s.engine ∨
        (∃ slotIdx, (s.transmitStep current todo didWork last input).engine =
          s.engine.beginTransmit slotIdx) ∨
        ∃ slotIdx firstPoll, (s.transmitStep current todo didWork last input).engine =
          (s.engine.transmitOnce { input with now := s.now } firstPoll slotIdx).2) := by
  rcases current with _ | ⟨slotIdx, firstPoll⟩
  · rcases todo with _ | ⟨slotIdx, _⟩
    · simp only [transmitStep]
      split_ifs <;> exact ⟨rfl, .inl rfl⟩
    · simp only [transmitStep]
      split_ifs
      · exact ⟨rfl, .inr (.inl ⟨slotIdx, rfl⟩)⟩
      · exact ⟨rfl, .inl rfl⟩
  · simp only [transmitStep]
    rcases hres : s.engine.transmitOnce { input with now := s.now } firstPoll slotIdx
      with ⟨_ | _, engine⟩
    all_goals exact ⟨rfl, .inr (.inr ⟨slotIdx, firstPoll, by rw [hres]⟩)⟩

def Label.isOutside : Label → Bool
  | .writerPops | .runOnce _ | .receive _ _ | .command _ | .transmit _ | .timer _ _ => false
  | _ => true

structure SameConnections (e e' : Engine) : Prop where
  connections : e'.connections = e.connections
  endpoint : e'.endpoint = e.endpoint
  chToSlot : e'.chToSlot = e.chToSlot
  serverConfig : e'.serverConfig = e.serverConfig

inductive CellUse (cell : StreamCell) : StreamCell → Prop
  | same : CellUse cell cell
  | waits (task : Task) : CellUse cell { cell with sendWaker := some task }
  | read (leftover : Bytes) (remaining : Nat) (task : Task) :
      CellUse cell (PollRead.pollRead cell leftover remaining task).2.2

structure Outside (s : State) (a : Label) (s' : State) : Prop where
  same : SameConnections s.engine s'.engine
  phase : s'.phase = s.phase
  txQueue : s'.engine.txQueue = s.engine.txQueue
  pendingSend : s'.engine.pendingSend = s.engine.pendingSend
  nextCell : s'.engine.nextCell = s.engine.nextCell
  cells : ∃ cell value, CellUse (s.engine.cells cell) value ∧
    s'.engine.cells = Function.update s.engine.cells cell value
  cmdQueue : s'.engine.cmdQueue = match a.issues with
    | none => s.engine.cmdQueue
    | some (_, cmd) => (s.engine.cmdQueue.push cmd).getD s.engine.cmdQueue

inductive Turn (s : State) : Label → State → Prop
  | packet {queue : Nat} {didWork : Bool} {q rest : ArrayQueue Bytes} {payload : Bytes}
      (event : DatagramEvent) (replies : Replies) (hphase : s.phase = .receive queue didWork)
      (hq : s.engine.rxQueues[queue]? = some q) (hpop : q.pop = some (payload, rest)) :
      Turn s (.receive event replies) { s with
        engine := Engine.dispatch { s.engine with rxQueues := s.engine.rxQueues.set queue rest }
          replies event
        phase := .receive queue true }
  | noPacket {queue : Nat} {didWork : Bool} {phase : Phase} (event : DatagramEvent)
      (replies : Replies) (hphase : s.phase = .receive queue didWork)
      (hq : ∀ q ∈ s.engine.rxQueues[queue]?, q.pop = none)
      (h : phase = .commands didWork ∨ phase = .receive (queue + 1) didWork) :
      Turn s (.receive event replies) { s with phase }
  | command {didWork : Bool} {cmd : TileAppCommand} {cmdQueue : ArrayQueue TileAppCommand}
      (input : Engine.CommandInput) (hphase : s.phase = .commands didWork)
      (hpop : s.engine.cmdQueue.pop = some (cmd, cmdQueue)) :
      Turn s (.command input) { s with
        engine := Engine.processCommand { s.engine with cmdQueue } input cmd
        phase := .commands true }
  | noCommand {didWork : Bool} (input : Engine.CommandInput)
      (hphase : s.phase = .commands didWork) (hpop : s.engine.cmdQueue.pop = none) :
      Turn s (.command input) (s.startTransmit didWork false)
  | transmit {current : Option (Nat × Bool)} {todo : List Nat} {didWork last : Bool}
      (input : Connection.TransmitInput) (hphase : s.phase = .transmit current todo didWork last) :
      Turn s (.transmit input) (s.transmitStep current todo didWork last input)
  | timer {slotIdx : Nat} {due : List Nat} {didWork : Bool} (input : Connection.TimeoutInput)
      (replies : Replies) (hphase : s.phase = .timers (slotIdx :: due) didWork) :
      Turn s (.timer input replies) { s with
        engine := s.engine.fireTimer s.now input replies slotIdx
        phase := .timers due didWork }
  | lastTransmit (input : Connection.TimeoutInput) (replies : Replies)
      (hphase : s.phase = .timers [] true) :
      Turn s (.timer input replies) (s.startTransmit true true)
  | stop (input : Connection.TimeoutInput) (replies : Replies)
      (hphase : s.phase = .timers [] false) :
      Turn s (.timer input replies) { s with phase := .idle }
  | runOnce (now : Instant) (hphase : s.phase = .idle) :
      Turn s (.runOnce now) { s with phase := .receive 0 false, now }
  | writerPops : Turn s .writerPops s.writerPops
  | outside {a : Label} {s' : State} (ha : a.isOutside = true) (h : Outside s a s') : Turn s a s'

theorem State.step_turn {s s' : State} {a : Label} (h : s.step a = some s') : Turn s a s' := by
  have hcells : ∃ cell value, CellUse (s.engine.cells cell) value ∧
      s.engine.cells = Function.update s.engine.cells cell value :=
    ⟨0, _, .same, (Function.update_eq_self 0 _).symm⟩
  cases a with
  | receive event replies =>
    simp only [step] at h
    split at h <;> cases h
    rename_i queue didWork hphase
    unfold receiveStep
    split
    · rename_i hq
      exact .noPacket event replies hphase (by simp [hq]) (.inl rfl)
    · rename_i q hq
      split
      · rename_i hpop
        exact .noPacket event replies hphase (by simp [hq, hpop]) (.inr rfl)
      · rename_i hpop
        exact .packet event replies hphase hq hpop
  | command input =>
    simp only [step] at h
    split at h <;> cases h
    rename_i didWork hphase
    unfold commandStep
    split
    · rename_i hpop
      exact .noCommand input hphase hpop
    · rename_i hpop
      exact .command input hphase hpop
  | transmit input =>
    simp only [step] at h
    split at h <;> cases h
    rename_i hphase
    exact .transmit input hphase
  | timer input replies =>
    simp only [step] at h
    split at h <;> cases h
    rename_i due didWork hphase
    unfold timerStep
    split
    · exact .timer input replies hphase
    · rcases didWork with _ | _
      · exact .stop input replies hphase
      · exact .lastTransmit input replies hphase
  | runOnce now =>
    simp only [step, ite_none_right_eq_some, some.injEq] at h
    obtain ⟨hphase, rfl⟩ := h
    exact .runOnce now hphase
  | writerPops =>
    cases h
    exact .writerPops
  | arrive =>
    cases h
    unfold State.arrive
    split <;> exact .outside rfl ⟨⟨rfl, rfl, rfl, rfl⟩, rfl, rfl, rfl, rfl, hcells, rfl⟩
  | accept =>
    cases h
    unfold acceptStep App.accept
    split <;> (rename_i heq; split at heq <;> cases heq
               exact .outside rfl ⟨⟨rfl, rfl, rfl, rfl⟩, rfl, rfl, rfl, rfl, hcells, rfl⟩)
  | acceptBi conn task | openBi conn task =>
    simp only [step, ite_none_right_eq_some, some.injEq] at h
    obtain ⟨-, rfl⟩ := h
    simp only [pollBiStep, App.acceptBi, App.openBi, pollBi]
    split <;> exact .outside rfl ⟨⟨rfl, rfl, rfl, rfl⟩, rfl, rfl, rfl, rfl, hcells, rfl⟩
  | write stream _ task =>
    simp only [step, ite_none_right_eq_some, some.injEq] at h
    obtain ⟨-, rfl⟩ := h
    unfold pollWrite
    split
    · rename_i hq
      exact .outside rfl
        ⟨⟨rfl, rfl, rfl, rfl⟩, rfl, rfl, rfl, rfl, hcells, by simp [Label.issues, hq]⟩
    · rename_i hq
      exact .outside rfl
        ⟨⟨rfl, rfl, rfl, rfl⟩, rfl, rfl, rfl, rfl, ⟨stream.cell, _, .waits task, rfl⟩,
        by simp [Label.issues, hq, Engine.setCell]⟩
  | sendOpen | shutdown | finish | sendReset | sendClose =>
    simp only [step, ite_none_right_eq_some, some.injEq] at h
    obtain ⟨-, rfl⟩ := h
    exact .outside rfl ⟨⟨rfl, rfl, rfl, rfl⟩, rfl, rfl, rfl, rfl, hcells, rfl⟩
  | read _ remaining task =>
    obtain ⟨⟨_, _, _⟩, hread, rfl⟩ := map_eq_some_iff.mp h
    obtain ⟨stream, -, heq⟩ := map_eq_some_iff.mp hread
    cases heq
    exact .outside rfl ⟨⟨rfl, rfl, rfl, rfl⟩, rfl, rfl, rfl, rfl,
      ⟨stream.cell, _, .read stream.leftover remaining task, rfl⟩, rfl⟩
  | dropConnection | dropSend | dropRecv =>
    cases h
    exact .outside rfl ⟨⟨rfl, rfl, rfl, rfl⟩, rfl, rfl, rfl, rfl, hcells, rfl⟩

theorem State.writerPops_sameConnections (s : State) :
    SameConnections s.engine s.writerPops.engine := by
  unfold State.writerPops
  split <;> exact ⟨rfl, rfl, rfl, rfl⟩

/-- A property of the connections is an invariant when each piece of work of the
engine keeps it; a packet or command is off its queue when the work begins. -/
theorem State.step_keeps {P : Engine → Prop} {s s' : State} {a : Label}
    (hsame : ∀ {e e' : Engine}, SameConnections e e' → P e → P e')
    (hreceive : ∀ event replies e, a = .receive event replies → SameConnections s.engine e →
      P (e.dispatch replies event))
    (hcommand : ∀ input cmd rest e, a = .command input →
      s.engine.cmdQueue.pop = some (cmd, rest) → SameConnections s.engine e →
      P (e.processCommand input cmd))
    (hbegin : ∀ slotIdx, P (s.engine.beginTransmit slotIdx))
    (htransmit : ∀ input firstPoll slotIdx, a = .transmit input →
      P (s.engine.transmitOnce { input with now := s.now } firstPoll slotIdx).2)
    (htimer : ∀ input replies slotIdx, a = .timer input replies →
      P (s.engine.fireTimer s.now input replies slotIdx))
    (h : P s.engine) (hstep : s.step a = some s') : P s'.engine := by
  cases step_turn hstep with
  | packet event replies => exact hreceive event replies _ rfl ⟨rfl, rfl, rfl, rfl⟩
  | command input _ hpop => exact hcommand input _ _ _ rfl hpop ⟨rfl, rfl, rfl, rfl⟩
  | @transmit current todo didWork last input =>
    obtain ⟨-, heq | ⟨k, heq⟩ | ⟨k, firstPoll, heq⟩⟩ :=
      s.transmitStep_cases current todo didWork last input
    · exact heq ▸ h
    · exact heq ▸ hbegin k
    · exact heq ▸ htransmit input firstPoll k rfl
  | timer input replies => exact htimer input replies _ rfl
  | outside _ houtside => exact hsame houtside.same h
  | writerPops => exact hsame s.writerPops_sameConnections h
  | noCommand | lastTransmit =>
    refine hsame ?_ h
    exact ⟨rfl, rfl, rfl, rfl⟩
  | noPacket | stop | runOnce => exact h

def system : System State Label where
  initial s := ∃ config networkTiles, s = .initial config networkTiles
  step := State.step

end Quac.Tile
