import Quac.HandleIsolation

/-!
What `poll_write` reports as written against what the streams accept.
-/

namespace Quac.WriteIntegrity

open App Bridge EngineSteps HandleIsolation Identifiers Lib.BoundedQueue Lib.Transition
open ProtoConnection hiding State
open StreamAccess Tile TileEngine List

/-- For each stream of each connection: the bytes reported as written, the bytes that
the stream accepted, and whether a write found it closed. -/
structure Ledger where
  issuers : List ConnId
  reported : ConnId → StreamId → Bytes
  accepted : ConnId → StreamId → Bytes
  interrupted : ConnId → StreamId → Bool

variable {s s' : State} {a : Label} {cmd : TileAppCommand} {id : StreamId} {l : Ledger}

def Ledger.empty : Ledger :=
  ⟨[], fun _ _ => [], fun _ _ => [], fun _ _ => false⟩

def credit (account : ConnId → StreamId → Bytes) (conn : ConnId) (id : StreamId) (data : Bytes) :
    ConnId → StreamId → Bytes :=
  fun c i => if c = conn ∧ i = id then account c i ++ data else account c i

/-- The stream is neither reset, stopped nor finished, and its connection is open. -/
def writable (e : Engine) (k : Nat) (conn : ConnId) (id : StreamId) : Bool :=
  (e.slot k).any fun slot =>
    slot.connState == conn && !slot.inner.state.isClosed &&
      (slot.inner.streams.getSend id).any fun half => half.isWritable && half.stopReason.isNone

/-- What the stream of the slot accepts of a write. -/
def acceptedBy (slot : ConnectionSlot) (id : StreamId) (data : Bytes) : Bytes :=
  acceptedBytes data (writeStream slot.inner.streams slot.inner.state.isClosed id data).1

def observeCommand (e : Engine) (l : Ledger) : Ledger :=
  match e.cmdQueue.items, l.issuers with
  | .write k id data _ :: _, conn :: _ =>
    { l with
      accepted :=
        match e.slot k with
        | some slot => credit l.accepted slot.connState id (acceptedBy slot id data)
        | none => l.accepted
      interrupted := fun c i =>
        l.interrupted c i || (decide (c = conn ∧ i = id) && !writable e k conn id) }
  | _, _ => l

def observeWrites (s : State) (a : Label) (l : Ledger) : Ledger :=
  let observed :=
    match a with
    | .write stream buf task =>
      match (pollWrite s.engine stream buf task).1 with
      | some n => { l with reported := credit l.reported stream.state stream.id (buf.take n) }
      | none => l
    | .command _ => observeCommand s.engine l
    | _ => l
  { observed with issuers := observeIssuers s a l.issuers }

def ledger : System (State × Ledger) Label :=
  system.observed .empty observeWrites

/-- A write to an open stream fits the flow control limits and the send window when
it is processed. -/
def Fits (s : State) : Label → Prop
  | .command _ =>
    ∀ k id data fin rest, s.engine.cmdQueue.items = .write k id data fin :: rest →
      ∀ slot half, s.engine.slot k = some slot → slot.inner.state.isClosed = false →
        slot.inner.streams.getSend id = some half → half.isWritable = true →
        half.stopReason = none →
        data.length ≤ slot.inner.streams.writeLimit ∧ data.length ≤ half.maxData - half.offset
  | _ => True

def Admitted (s : State × Ledger) (a : Label) : Prop :=
  NoReuse (s.1, s.2.issuers) a ∧ Fits s.1 a

def queuedBytes (conn : ConnId) (id : StreamId) : List TileAppCommand → List ConnId → Bytes
  | .write _ i data _ :: cmds, c :: issuers =>
    (if conn = c ∧ id = i then data else []) ++ queuedBytes conn id cmds issuers
  | _ :: cmds, _ :: issuers => queuedBytes conn id cmds issuers
  | _, _ => []

theorem queuedBytes_append {cmds : List TileAppCommand} {issuers : List ConnId}
    (h : cmds.length = issuers.length) (conn : ConnId) (id : StreamId) (cmd : TileAppCommand)
    (c : ConnId) :
    queuedBytes conn id (cmds ++ [cmd]) (issuers ++ [c]) =
      queuedBytes conn id cmds issuers ++ queuedBytes conn id [cmd] [c] := by
  induction cmds generalizing issuers with
  | nil =>
    rw [length_eq_zero_iff.mp h.symm]
    rfl
  | cons first _ ih =>
    rcases issuers with _ | ⟨_, _⟩
    · simp at h
    · have hrest := ih (Nat.succ.inj h)
      cases first <;> simp [queuedBytes, hrest]

structure Balanced (s : State × Ledger) : Prop where
  owned : HandleIsolation.Inv (s.1, s.2.issuers)
  balance : ∀ conn id, s.2.interrupted conn id = false → s.2.reported conn id =
      s.2.accepted conn id ++ queuedBytes conn id s.1.engine.cmdQueue.items s.2.issuers

/-- Only commands are taken off the queue and only steps that send one add to it. -/
theorem step_cmdQueue (h : s.step a = some s')
    (hissues : a.issues = none) (hcommand : ∀ input, a ≠ .command input) :
    s'.engine.cmdQueue = s.engine.cmdQueue := by
  cases State.step_turn h with
  | packet event replies =>
    rcases dispatch_cases _ replies event with ⟨j, hmoves⟩ | ⟨_, _, _, _, -, -, heq⟩
    · exact (Local.of_moves hmoves).cmdQueue
    · dsimp only
      rw [heq]
      exact (Local.drainConnectionEvents _ _ _).cmdQueue
  | command input | noCommand input => exact absurd rfl (hcommand input)
  | transmit input =>
    obtain ⟨k, hmoves⟩ := TileWork.work_transmitStep
      (p := .any) (fun _ _ => trivial) s _ _ _ _ input
    exact (Local.of_moves hmoves).cmdQueue
  | timer input replies => exact (Local.of_moves (work_fireTimer _ _ input replies _)).cmdQueue
  | writerPops =>
    unfold State.writerPops
    split <;> rfl
  | outside _ houtside =>
    rw [houtside.cmdQueue, hissues]
  | noPacket | lastTransmit | stop | runOnce => rfl

variable {conn : ConnId}

theorem step_push (h : s.step a = some s') (hissues : a.issues = some (conn, cmd)) :
    s'.engine.cmdQueue = (s.engine.cmdQueue.push cmd).getD s.engine.cmdQueue := by
  cases State.step_turn h with
  | outside _ houtside => rw [houtside.cmdQueue, hissues]
  | _ => cases hissues

theorem acceptedBy_of_writable {input : Engine.CommandInput}
    (hfits : Fits s (.command input)) {k : Nat} {data : Bytes} {fin : Bool}
    {rest : List TileAppCommand} (hitems : s.engine.cmdQueue.items = .write k id data fin :: rest)
    (hwritable : writable s.engine k conn id = true) :
    ∃ slot, s.engine.slot k = some slot ∧ slot.connState = conn ∧
      acceptedBy slot id data = data := by
  rcases hslot : s.engine.slot k with _ | slot
  · simp [writable, hslot] at hwritable
  · simp only [writable, hslot, Option.any_some, Bool.and_eq_true, beq_iff_eq,
      Bool.not_eq_true', Option.any_eq_true, Option.isNone_iff_eq_none] at hwritable
    obtain ⟨⟨hconn, hclosed⟩, half, hsend, hready, hstop⟩ := hwritable
    obtain ⟨hlimit, hbudget⟩ :=
      hfits k id data fin rest hitems slot half hslot hclosed hsend hready hstop
    refine ⟨slot, rfl, hconn, ?_⟩
    rw [acceptedBy, hclosed]
    exact acceptedBytes_writeStream hsend hready hstop hlimit hbudget

theorem balance_command {input : Engine.CommandInput}
    (h : Balanced (s, l)) (hfits : Fits s (.command input)) {rest : List TileAppCommand}
    (hitems : s.engine.cmdQueue.items = cmd :: rest)
    (hopen : (observeCommand s.engine l).interrupted conn id = false) :
    (observeCommand s.engine l).reported conn id =
      (observeCommand s.engine l).accepted conn id ++ queuedBytes conn id rest l.issuers.tail := by
  have hcommands := h.owned.commands
  rw [hitems, forall₂_cons_left_iff] at hcommands
  obtain ⟨issuer, issuers, hown, -, hissuers⟩ := hcommands
  change l.issuers = issuer :: issuers at hissuers
  have hbalance := h.balance conn id
  simp only [hitems, hissuers] at hbalance
  cases cmd with
  | openStream | finish | resetStream | closeConn =>
    simp only [observeCommand, hitems, hissuers] at hopen ⊢
    exact hbalance hopen
  | write k i data =>
    simp only [observeCommand, hitems, hissuers, Bool.or_eq_false_iff, Bool.and_eq_false_iff,
      decide_eq_false_iff_not, Bool.not_eq_false'] at hopen ⊢
    obtain ⟨hbefore, hcase⟩ := hopen
    have hbalance := hbalance hbefore
    simp only [queuedBytes] at hbalance
    by_cases hsame : conn = issuer ∧ id = i
    · -- The stream is open, so it takes all of the data off the queue.
      obtain ⟨rfl, rfl⟩ := hsame
      have hwritable := hcase.resolve_left fun hne => hne ⟨rfl, rfl⟩
      obtain ⟨slot, hslot, hconn, haccepted⟩ := acceptedBy_of_writable hfits hitems hwritable
      rw [if_pos ⟨rfl, rfl⟩] at hbalance
      simp only [hslot, hconn, haccepted, credit, and_self, if_true, tail_cons]
      rw [hbalance, append_assoc]
    · rw [if_neg hsame, nil_append] at hbalance
      rcases hslot : s.engine.slot k with _ | slot
      · exact hbalance
      · have hconn : slot.connState = issuer := hown slot hslot
        simp only [hconn, credit, if_neg hsame, tail_cons]
        exact hbalance

theorem observeWrites_reported (hissues : a.issues = some (conn, cmd)) (c : ConnId) (i : StreamId) :
    (observeWrites s a l).accepted = l.accepted ∧
      (observeWrites s a l).interrupted = l.interrupted ∧
      (observeWrites s a l).reported c i = l.reported c i ++
        (if (s.engine.cmdQueue.push cmd).isSome then queuedBytes c i [cmd] [conn] else []) := by
  cases a with
  | write stream buf task =>
    cases hissues
    rcases hq : s.engine.cmdQueue.push (.write stream.slot stream.id buf false) with _ | q
    · have hpoll : (pollWrite s.engine stream buf task).1 = none := by simp [pollWrite, hq]
      simp [observeWrites, hpoll]
    · have hpoll : (pollWrite s.engine stream buf task).1 = some buf.length := by
        simp [pollWrite, hq]
      simp only [observeWrites, hpoll, credit, take_length, Option.isSome_some, if_true,
        queuedBytes, append_nil, true_and]
      split_ifs
      · rfl
      · rw [append_nil]
  | sendOpen | shutdown | finish | sendReset | sendClose =>
    cases hissues
    simp [observeWrites, queuedBytes]
  | arrive | writerPops | runOnce | receive | command | transmit | timer | accept | acceptBi
  | openBi | read | dropConnection | dropSend | dropRecv => simp [Label.issues] at hissues

theorem Balanced.step (h : Balanced (s, l))
    (hcond : Admitted (s, l) a) (hstep : s.step a = some s') :
    Balanced (s', observeWrites s a l) := by
  refine ⟨h.owned.step hcond.1 hstep, ?_⟩
  intro c i hopen
  rcases hissues : a.issues with _ | ⟨conn, cmd⟩
  · by_cases hcommand : ∃ input, a = .command input
    · obtain ⟨input, rfl⟩ := hcommand
      change (observeCommand s.engine l).interrupted c i = false at hopen
      change (observeCommand s.engine l).reported c i = (observeCommand s.engine l).accepted c i ++
          queuedBytes c i s'.engine.cmdQueue.items l.issuers.tail
      simp only [State.step] at hstep
      split at hstep
      · rw [← Option.some.inj hstep]
        unfold State.commandStep
        split
        · rename_i hpop
          have hitems := ArrayQueue.pop_eq_none hpop
          have hqueue (didWork : Bool) :
            (s.startTransmit didWork false).engine.cmdQueue.items = [] := hitems
          have hbalance := h.balance c i
          simp only [observeCommand, hitems] at hopen hbalance ⊢
          rw [hqueue, hbalance hopen]
          simp only [queuedBytes]
        · rename_i cmd rest hpop
          obtain ⟨-, hitems⟩ := ArrayQueue.pop_eq_some hpop
          rw [(Local.processCommand _ input cmd).cmdQueue]
          exact balance_command h hcond.2 hitems hopen
      · simp at hstep
    · have hother : ∀ input, a ≠ .command input := fun input ha => hcommand ⟨input, ha⟩
      have hqueue := step_cmdQueue hstep hissues hother
      have hledger : observeWrites s a l = l := by
        cases a with
        | command input => exact absurd rfl (hother input)
        | sendOpen | write | shutdown | finish | sendReset | sendClose =>
          simp [Label.issues] at hissues
        | arrive | writerPops | runOnce | receive | transmit | timer | accept | acceptBi
        | openBi | read | dropConnection | dropSend | dropRecv => rfl
      rw [hledger] at hopen ⊢
      rw [hqueue]
      exact h.balance c i hopen
  · obtain ⟨haccepted, hinterrupted, hreported⟩ :=
      observeWrites_reported hissues c i (s := s) (l := l)
    have hissuers : (observeWrites s a l).issuers = issue s conn l.issuers := by
      simp [observeWrites, observeIssuers, hissues]
    rw [hinterrupted] at hopen
    have hlength : s.engine.cmdQueue.items.length = l.issuers.length := h.owned.commands.length_eq
    rw [hreported, haccepted, hissuers, step_push hstep hissues, h.balance c i hopen]
    rcases hq : s.engine.cmdQueue.push cmd with _ | q
    · have hfull : ¬ s.engine.cmdQueue.items.length < s.engine.cmdQueue.capacity := by
        intro hroom
        simp [ArrayQueue.push, hroom] at hq
      simp [issue, hfull]
    · obtain ⟨hroom, -, hitems⟩ := ArrayQueue.push_eq_some hq
      simp only [issue, hroom, if_true, Option.getD_some, hitems, Option.isSome_some]
      rw [queuedBytes_append hlength, append_assoc]

theorem balanced_of_reachableVia {s : State × Ledger} (hs : ledger.ReachableVia Admitted s) :
    Balanced s := by
  refine hs.observed_invariant ?_ fun _ _ _ _ h hcond hstep => h.step hcond hstep
  intro s hs
  refine ⟨HandleIsolation.inv_of_reachableVia (.initial ⟨hs, rfl⟩), ?_⟩
  obtain ⟨config, networkTiles, rfl⟩ := hs
  intro conn id _
  rfl

/-- When the queue is drained, an open stream has accepted what was reported. -/
theorem accepted_eq_reported {s : State × Ledger} (hs : ledger.ReachableVia Admitted s)
    (hdrained : s.1.engine.cmdQueue.items = []) {conn : ConnId} {id : StreamId}
    (hopen : s.2.interrupted conn id = false) :
    s.2.accepted conn id = s.2.reported conn id := by
  have hbalance := (balanced_of_reachableVia hs).balance conn id hopen
  rw [hdrained] at hbalance
  simpa [queuedBytes] using hbalance.symm

/-! A client whose first grant is one byte, for the connection and for the stream. -/

def smallWindow : Decrypted :=
  { initialPacket [.crypto false none] with peerParams := some (.ok (⟨0, 0, 1, 1, 0, 1⟩, 0)) }

def smallWindowClient : DatagramEvent :=
  .newConnection (.initial false smallWindow (datagram []) [] ⟨[], 0⟩)

def handshakeDone : Decrypted :=
  { initialPacket [.crypto false none] with
    kind := .handshake, peerParams := none, handshakeComplete := true }

def firstStream : StreamId :=
  ⟨.server, .bi, 0⟩

def firstSend : SendStream :=
  ⟨0, 0, firstStream, 0⟩

def commandInput : Engine.CommandInput :=
  ⟨0, 0, replies⟩

def openFirst : List Label :=
  [.arrive 0 [0], .runOnce 0, .receive smallWindowClient replies, .arrive 0 [0],
    .receive (.forConnection 0 (datagram [.decrypted handshakeDone])) replies, .accept 0,
    .sendOpen ⟨0, 0⟩, .receive .nothing replies, .receive .nothing replies, .command commandInput,
    .openBi ⟨0, 0⟩ 0]

def openAndWrite (buf : Bytes) : List Label :=
  openFirst ++ [.write firstSend buf 0, .command commandInput]

def transmitNothing : Connection.TransmitInput :=
  ⟨0, false, [], none, ⟨[], 0⟩⟩

def grant : List Label :=
  [.command commandInput, .transmit transmitNothing, .transmit transmitNothing,
    .transmit transmitNothing, .timer ⟨(⟨[], [], [], [], false, false⟩, .none), 0⟩ replies,
    .transmit transmitNothing, .arrive 0 [0], .runOnce 0,
    .receive (.forConnection 0 (datagram [.decrypted
      { initialPacket [.maxData 100, .maxStreamData firstStream 100] with
        kind := .oneRtt, peerParams := none }])) replies]

def fitsNow (s : State) : Label → Bool
  | .command _ =>
    match s.engine.cmdQueue.items with
    | .write k id data _ :: _ =>
      (s.engine.slot k).all fun slot =>
        (slot.inner.streams.getSend id).all fun half =>
          decide (data.length ≤ slot.inner.streams.writeLimit ∧
            data.length ≤ half.maxData - half.offset)
    | _ => true
  | _ => true

theorem admitted_of_check (s : State × Ledger) (a : Label)
    (h : (reuseFree (s.1, s.2.issuers) a && fitsNow s.1 a) = true) : Admitted s a := by
  rw [Bool.and_eq_true] at h
  refine ⟨noReuse_of_reuseFree _ _ h.1, ?_⟩
  cases a with
  | command =>
    intro k id data fin rest hitems slot half hslot _ hsend _ _
    have hfits := h.2
    simp only [fitsNow, hitems, hslot, hsend, Option.all_some, decide_eq_true_eq] at hfits
    exact hfits
  | arrive | writerPops | runOnce | receive | transmit | timer | accept | acceptBi | sendOpen
  | openBi | write | shutdown | finish | read | dropConnection | dropSend | dropRecv | sendReset
  | sendClose => trivial

theorem openAndWrite_accepted : ∃ s, ledger.ReachableVia Admitted s ∧
    s.2.reported 0 firstStream = [1] ∧ s.2.accepted 0 firstStream = s.2.reported 0 firstStream := by
  have hinitial : ledger.ReachableVia Admitted (.initial config 1, .empty) :=
    .initial ⟨⟨config, 1, rfl⟩, rfl⟩
  refine hinitial.exists_of_runChecked admitted_of_check (openAndWrite [1]) ?_
  exact ⟨_, rfl, fun hreach => ⟨rfl, accepted_eq_reported hreach rfl rfl⟩⟩

theorem openAndWrite_lost : ∃ s, ledger.Reachable s ∧ s.1.engine.cmdQueue.items = [] ∧
    writable s.1.engine 0 0 firstStream = true ∧ s.2.interrupted 0 firstStream = false ∧
    s.2.reported 0 firstStream = [1, 2] ∧ s.2.accepted 0 firstStream = [1] := by
  have hinitial : ledger.Reachable (.initial config 1, .empty) := .initial ⟨⟨_, _, rfl⟩, rfl⟩
  refine hinitial.exists_of_run (openAndWrite [1, 2] ++ grant) ?_
  exact ⟨_, rfl, rfl, rfl, rfl, rfl, rfl⟩

end Quac.WriteIntegrity
