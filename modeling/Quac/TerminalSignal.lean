import Quac.CellSteps
import Quac.DrainTrack
import Quac.TimerSync
import Quac.WriteIntegrity

/-!
What readers learn when their stream is reset or their connection is lost.
-/

namespace Quac.TerminalSignal

open App Bridge CellSteps DrainTrack EngineSettles EngineSteps Function
open HandleIsolation (config replies datagram initialPacket)
open Identifiers Lib.Slabs Lib.Transition Lifecycle
open PollRead (Poll pollRead)
open ProtoConnection hiding State
open RecvSteps StreamAccess StreamSignals Streams Tile TileEngine TileWork Engine
open TimerSync (transmit noTimeout)
open WriteIntegrity (smallWindow handshakeDone firstStream commandInput)

variable {c : Connection} {k : Nat} {e : Engine} {s s' : State} {a : Label} {w : Work}
  {id : StreamId}

/-- The peer has reset the stream, and the application was not told yet. -/
def IsReset (s : StreamsState) (id : StreamId) : Prop :=
  ∃ recv size code, s.getRecv id = some recv ∧ recv.state = .resetRecvd size code

/-- The step ends the stream of the cell: the connection is lost, with the streams
that it had and those it opened last, or the stream is reset. -/
def Terminates (s : State) (w : Work) (s' : State) (cell : CellId) : Prop :=
  (s'.engine.slot w.slotIdx = none ∧
    ((∃ id, w.streams id = some cell) ∨ s.engine.nextCell ≤ cell ∧ cell < s'.engine.nextCell)) ∨
  ∃ slot id, s'.engine.slot w.slotIdx = some slot ∧ slot.streams id = some cell ∧
    IsReset w.inner.streams id

def observeTerminated (s : State) (a : Label) (terminated : Set CellId) : Set CellId :=
  { cell | cell ∈ terminated ∨
    ∃ w s', work s a = some w ∧ s.step a = some s' ∧ Terminates s w s' cell }

/-- Tiles with the cells whose streams were reset or lost. -/
def terminating : System (State × Set CellId) Label :=
  system.observed ∅ observeTerminated

/-- No stream is reset, and a connection is lost only when the FIN of each of its
streams was delivered and no stream of the peer waits to be accepted. -/
def FinFirst (s : State × Set CellId) (a : Label) : Prop :=
  ∀ w, work s.1 a = some w → (∀ id, ¬ IsReset w.inner.streams id) ∧ (w.inner.error ≠ none →
        (∀ dir, w.inner.streams.nextRemote dir = w.inner.streams.nextReportedRemote dir) ∧
          ∀ id cell, w.streams id = some cell → (s.1.engine.cells cell).recvFin = true)

/-- No task sleeps in a read, and a read returns at once. -/
def Completes (cell : StreamCell) : Prop :=
  cell.recvWaker = none ∧
    ∀ leftover remaining task, ∃ bytes, (pollRead cell leftover remaining task).1 = .ready bytes

theorem completes_of_fin {cell : StreamCell} (hfin : cell.recvFin = true) (hwoken : Woken cell) :
    Completes cell := by
  refine ⟨hwoken hfin, fun leftover remaining task => ?_⟩
  unfold pollRead
  split_ifs
  · exact ⟨_, rfl⟩
  · split <;> exact ⟨_, rfl⟩

theorem tame_rule : InnerRule Tame where
  poll c h := by
    unfold Connection.poll
    split
    · rename_i event events hevents
      refine ⟨fun reason hr => h.lost reason ?_, h.closed⟩
      rw [hevents]
      exact List.mem_cons_of_mem _ hr
    · split
      · exact ⟨h.lost, h.closed⟩
      · split
        · exact ⟨h.lost, fun herror => absurd rfl herror⟩
        · exact ⟨h.lost, h.closed⟩
  accept c dir h := ⟨h.lost, h.closed⟩
  openStream c dir h := ⟨h.lost, h.closed⟩
  readError c id error streams h _ := ⟨h.lost, h.closed⟩
  read c id chunks room h _ := ⟨h.lost, h.closed⟩
  endpointEvent c h := by
    unfold Connection.pollEndpointEvents
    split <;> exact ⟨h.lost, h.closed⟩
  reply c rearm h := ⟨h.lost, h.closed⟩

/-- The connection is closed, and every stream of the peer was accepted. -/
def NoneWaiting (c : Connection) : Prop :=
  c.state.isClosed = true ∧ ∀ dir, c.streams.nextRemote dir = c.streams.nextReportedRemote dir

theorem NoneWaiting.of_counts (h : NoneWaiting c) {streams : StreamsState}
    (hs : SameCounts c.streams streams) (pending : Retransmits) :
    NoneWaiting { c with streams, pending } :=
  ⟨h.1, fun dir => by rw [hs.nextRemote, hs.nextReportedRemote]; exact h.2 dir⟩

theorem acceptStream_of_noneWaiting (h : NoneWaiting c) (dir : Dir) :
    acceptStream c.streams dir = (none, c.streams) := by
  rw [acceptStream, if_pos (h.2 dir)]

theorem openStream_of_noneWaiting (h : NoneWaiting c) (dir : Dir) :
    openStream c.streams c.state.isClosed dir = (none, c.streams) := by
  rw [openStream, if_pos h.1]

theorem noneWaiting_rule : InnerRule NoneWaiting where
  poll c h := by
    obtain ⟨-, -, hremote, hreported⟩ := poll_counts c.streams
    unfold Connection.poll
    split
    · exact h
    · split
      · rename_i heq
        rw [heq] at hremote hreported
        exact ⟨h.1, fun dir => by rw [hremote, hreported]; exact h.2 dir⟩
      · rename_i heq
        rw [heq] at hremote hreported
        split <;> exact ⟨h.1, fun dir => by rw [hremote, hreported]; exact h.2 dir⟩
  accept c dir h := by
    rw [acceptStream_of_noneWaiting h]
    exact h
  openStream c dir h := by
    rw [openStream_of_noneWaiting h]
    exact h
  readError c id error streams h hnew :=
    h.of_counts (.of_absorbs ((absorbs_chunks_new _ _ _).1 error streams hnew)) _
  read c id chunks room h hnew := h.of_counts (.of_absorbs (absorbs_read hnew room c.pending)) _
  endpointEvent c h := by
    unfold Connection.pollEndpointEvents
    split <;> exact h
  reply c rearm h := h

theorem nextCell_of_moves {p : Permit} {e' : Engine} (hopens : ¬ p.opens)
    (h : Moves p k e e') : e'.nextCell = e.nextCell := by
  induction h with
  | refl => rfl
  | tail _ hmove ih =>
    cases hmove with
    | opened h => exact absurd h hopens
    | _ => exact ih

theorem noCell_rule (replies : Replies) (k ch n : Nat) :
    DrainRule replies k ch fun e => e.nextCell = n ∧ InnerHolds NoneWaiting k e := by
  refine drainRule_of_moves (p := { keeping NoneWaiting with opens := False })
    (fun _ _ hstep => noneWaiting_rule.inner hstep) trivial (fun h hmoves => ?_) replies ch ?_ ?_
  · exact ⟨(nextCell_of_moves id hmoves).trans h.1,
      InnerHolds.of_moves h.2 hmoves fun _ _ hkeeps => hkeeps⟩
  · intro e slot dir id streams h hslot haccept
    rw [acceptStream_of_noneWaiting (h.2 slot hslot)] at haccept
    cases haccept
  · intro e slot dir id streams h hslot hopen
    rw [openStream_of_noneWaiting (h.2 slot hslot)] at hopen
    cases hopen

variable {slot : ConnectionSlot}

/-- A slot that draining has removed held a connection that had ended; if nothing
waited to be accepted, no cell was made for it any more. -/
theorem drain_gone {replies : Replies} (hslot : e.slot k = some slot) (htame : Tame slot.inner)
    (hgone : (drainConnectionEvents replies e k).slot k = none) :
    slot.inner.error ≠ none ∧
      ((∀ dir, slot.inner.streams.nextRemote dir = slot.inner.streams.nextReportedRemote dir) →
        (drainConnectionEvents replies e k).nextCell = e.nextCell) := by
  have herror : slot.inner.error ≠ none := by
    obtain ⟨-, ⟨slot', hrun⟩ | hremoved⟩ : Track k slot.handle e slot.inner
        (drainConnectionEvents replies e k) :=
      DrainRule.drainConnectionEvents hslot (Track.drainRule _ _ _ e htame.lost)
        ⟨fun _ _ => Iff.rfl, .inl ⟨slot, hslot, rfl, rfl, .refl, Iff.rfl⟩⟩
    · rw [hrun.occupied] at hgone
      cases hgone
    · exact hremoved.error
  refine ⟨herror, fun hwaiting => ?_⟩
  have hstart : InnerHolds NoneWaiting k e := by
    intro s hs
    rw [hslot] at hs
    cases hs
    exact ⟨htame.closed herror, hwaiting⟩
  exact (DrainRule.drainConnectionEvents hslot (noCell_rule replies k slot.handle e.nextCell)
    ⟨rfl, hstart⟩).1

def TameSlots (e : Engine) : Prop :=
  ∀ k slot, e.slot k = some slot → Tame slot.inner

namespace TameSlots

variable {e e' : Engine} {k : Nat}

theorem of_moves (h : TameSlots e) (hmoves : Moves (keeping Tame) k e e') : TameSlots e' :=
  EverySlot.of_slots h (Local.of_moves hmoves).slots
    (InnerHolds.of_moves (h k) hmoves fun _ _ hkeeps => hkeeps)

theorem dispatch (h : TameSlots e) (replies : Replies) (event : DatagramEvent) :
    TameSlots (e.dispatch replies event) := by
  obtain hanswered | ⟨ch, d, k, -, -, heq⟩ | ⟨_, ch, conn, endpoint, -, haccept, heq⟩ :=
    dispatch_work e replies event
  · exact EverySlot.of_connections h hanswered.connections
  · rw [heq]
    have hserved : ∀ c, Tame c → Tame (c.handleDatagram d) := fun _ =>
      (tame_endRule.input _).handleDatagram (List.Subset.refl _)
    exact h.of_moves ((moves_act (fun c => c.handleDatagram d) hserved).trans
      (moves_drainConnectionEvents tame_rule.drains replies _ k))
  · rw [heq]
    have hadded : TameSlots (addConnection { e with endpoint } ch conn) := by
      refine EverySlot.of_slots (k := e.connections.vacantKey) h ?_ ?_
      · intro j hj
        exact (slot_addConnection { e with endpoint } ch conn j).trans (if_neg hj)
      · intro slot hslot
        have hs := (slot_addConnection { e with endpoint } ch conn _).symm.trans hslot
        rw [if_pos rfl] at hs
        cases hs
        exact (accept_ok haccept).1.tame
    exact hadded.of_moves (moves_drainConnectionEvents tame_rule.drains replies _ _)

theorem step (h : TameSlots s.engine) (hstep : s.step a = some s') : TameSlots s'.engine := by
  have hof : ∀ {e e' : Engine}, SameConnections e e' → TameSlots e → TameSlots e' :=
    fun hsame he => EverySlot.of_connections he hsame.connections
  refine State.step_keeps hof ?_ ?_ (fun k => h.of_moves (moves_beginTransmit k)) ?_ ?_ h hstep
  · rintro event replies e - hsame
    exact (hof hsame h).dispatch replies event
  · rintro input cmd rest e - - hsame
    exact (hof hsame h).of_moves (moves_processCommand tame_rule.drains
      (fun _ _ _ hc => ⟨hc.lost, hc.closed⟩)
        (fun _ now pto => tame_endRule.closing.closeInner now pto) input cmd)
  · rintro input firstPoll k -
    exact h.of_moves (moves_transmitOnce (fun _ => tame_endRule.output.pollTransmit _) firstPoll k)
  · rintro input replies k -
    exact h.of_moves (moves_fireTimer tame_rule.drains s.now input
      (fun _ => (tame_endRule.input []).handleTimeout s.now input) replies k)

end TameSlots

theorem work_tame (htame : TameSlots s.engine) (hw : work s a = some w) : Tame w.inner := by
  obtain ⟨slot, hslot, -, ⟨d, heq⟩ | ⟨now, input, heq⟩ | heq⟩ | ⟨_, _, _, -, haccept⟩ :=
    work_cases hw
  · exact heq ▸ (tame_endRule.input _).handleDatagram (List.Subset.refl _) (htame _ slot hslot)
  · exact heq ▸ (tame_endRule.input []).handleTimeout now input (htame _ slot hslot)
  · exact heq ▸ htame _ slot hslot
  · exact (accept_ok haccept).1.tame

theorem act_gone {replies : Replies}
    (hslot : e.slot k = some slot) (f : Connection → Connection) (htame : Tame (f slot.inner))
    (hgone : (drainConnectionEvents replies
      (match e.slot k with
      | some slot => (e.setInner k slot (f slot.inner)).markPendingSend k
      | none => e) k).slot k = none) :
    (f slot.inner).error ≠ none ∧ ((∀ dir, (f slot.inner).streams.nextRemote dir =
          (f slot.inner).streams.nextReportedRemote dir) →
        (drainConnectionEvents replies
          (match e.slot k with
          | some slot => (e.setInner k slot (f slot.inner)).markPendingSend k
          | none => e) k).nextCell = e.nextCell) := by
  rw [hslot] at hgone ⊢
  obtain ⟨_, hslot', -, hinner⟩ := (worked_act hslot (f slot.inner)).occupied
  obtain ⟨herror, hnext⟩ := drain_gone hslot' (hinner ▸ htame) hgone
  rw [hinner] at herror hnext
  exact ⟨herror, fun hwaiting => (hnext hwaiting).trans
    (nextCell_of_moves (p := ⟨fun _ _ => True, False, True⟩) id
      ((moves_setInner hslot trivial).trans moves_markPendingSend))⟩

theorem withSlot_gone (htame : TameSlots e) (input : Engine.CommandInput)
    (hslot : e.slot k = some slot) (f : Connection → Connection)
    (hf : ∀ c, Tame c → Tame (f c) ∧ (f c).error = c.error ∧ SameReceive c.streams (f c).streams)
    (hgone : (e.withSlot input k f).slot k = none) :
    slot.inner.error ≠ none ∧
      ((∀ dir, slot.inner.streams.nextRemote dir = slot.inner.streams.nextReportedRemote dir) →
        (e.withSlot input k f).nextCell = e.nextCell) := by
  obtain ⟨htame', herror, hsame⟩ := hf slot.inner (htame k slot hslot)
  obtain ⟨herror', hnext⟩ := act_gone hslot f htame' hgone
  rw [hsame.nextRemote, hsame.nextReportedRemote] at hnext
  exact ⟨herror ▸ herror', hnext⟩

theorem command_gone (htame : TameSlots e) (input : Engine.CommandInput)
    {cmd : TileAppCommand} (hslot : e.slot cmd.conn = some slot)
    (hgone : (e.processCommand input cmd).slot cmd.conn = none) :
    slot.inner.error ≠ none ∧
      ((∀ dir, slot.inner.streams.nextRemote dir = slot.inner.streams.nextReportedRemote dir) →
        (e.processCommand input cmd).nextCell = e.nextCell) := by
  cases cmd with
  | openStream conn dir =>
    have hslot' : e.slot conn = some slot := hslot
    simp only [processCommand, hslot'] at hgone ⊢
    rcases hopen : openStream slot.inner.streams slot.inner.state.isClosed dir
      with ⟨_ | id, streams⟩
    · simp only [hopen] at hgone
      have hset := slot_setSlot_self hslot' { slot with inner := { slot.inner with streams } }
      exact absurd (hset.symm.trans hgone) (by simp)
    · -- The connection was open, so that it has not ended.
      simp only [hopen] at hgone
      have hkeeps :=
        Keeps.of_moves ((moves_opened hslot' (calm_streams _ streams slot.inner.pending)
        trivial id true).trans moves_markPendingSend)
      obtain ⟨slot', hslot₁, -, hlife, -⟩ := hkeeps.slot slot hslot'
      have hclosed := (htame conn slot hslot').closed
      have htame' : Tame slot'.inner :=
        ⟨fun reason hr => (htame conn slot hslot').lost reason (hlife.lost reason hr),
          fun herror => by rw [hlife.state]; exact hclosed (hlife.error ▸ herror)⟩
      obtain ⟨herror, -⟩ := drain_gone hslot₁ htame' hgone
      rw [openStream, if_pos (hclosed (hlife.error ▸ herror))] at hopen
      cases hopen
  | write _ stream data =>
    rw [processCommand] at hgone ⊢
    refine withSlot_gone htame input hslot _ (fun c hc => ⟨⟨hc.lost, hc.closed⟩, rfl, ?_⟩) hgone
    have hwrite := sameReceive_writeStream c.streams c.state.isClosed stream data
    split_ifs
    · exact hwrite.trans (sameReceive_finishStream _ stream)
    · exact hwrite
  | finish _ stream =>
    rw [processCommand] at hgone ⊢
    exact withSlot_gone htame input hslot _
      (fun c hc => ⟨⟨hc.lost, hc.closed⟩, rfl, sameReceive_finishStream _ stream⟩) hgone
  | resetStream _ stream =>
    rw [processCommand] at hgone ⊢
    exact withSlot_gone htame input hslot _
      (fun c hc => ⟨⟨hc.lost, hc.closed⟩, rfl, sameReceive_resetStream _ _ stream _⟩) hgone
  | closeConn =>
    rw [processCommand] at hgone ⊢
    refine withSlot_gone htame input hslot _
      (fun c hc => ⟨tame_endRule.closing.closeInner _ _ hc, ?_⟩) hgone
    unfold Connection.closeInner
    split_ifs <;> exact ⟨rfl, rfl, rfl, rfl, rfl, rfl, rfl, rfl, rfl, rfl⟩

/-- A connection that a step loses had ended, and if nothing waited to be accepted,
the step has made no cell. -/
theorem step_gone (htame : TameSlots s.engine) (hstep : s.step a = some s') (hw : work s a = some w)
    (hgone : s'.engine.slot w.slotIdx = none) :
    w.inner.error ≠ none ∧
      ((∀ dir, w.inner.streams.nextRemote dir = w.inner.streams.nextReportedRemote dir) →
        s'.engine.nextCell = s.engine.nextCell) := by
  obtain ⟨_, e, hworked, heq⟩ | ⟨input, _, cmdQueue, slot, hslot, rfl, heq⟩ :=
    step_of_work hw hstep
  · obtain ⟨_, hslot, -, hinner⟩ := hworked.occupied
    rw [heq] at hgone ⊢
    obtain ⟨herror, hnext⟩ := drain_gone hslot (hinner ▸ work_tame htame hw) hgone
    rw [hinner] at herror hnext
    exact ⟨herror, fun hwaiting => (hnext hwaiting).trans hworked.nextCell⟩
  · rw [heq] at hgone ⊢
    have htame' : TameSlots { s.engine with cmdQueue } := EverySlot.of_connections htame rfl
    exact command_gone htame' input hslot hgone

theorem work_streams {cell : CellId} (hw : work s a = some w) (hid : w.streams id = some cell) :
    ∃ slot, s.engine.slot w.slotIdx = some slot ∧ slot.streams id = some cell := by
  obtain ⟨slot, hslot, hstreams, -⟩ | ⟨_, _, _, hstreams, -⟩ := work_cases hw
  · exact ⟨slot, hslot, hstreams ▸ hid⟩
  · rw [hstreams] at hid
    cases hid

structure Inv (s : State × Set CellId) : Prop where
  cells : CellsOk s.1.engine
  tame : TameSlots s.1.engine
  fin : ∀ cell ∈ s.2, cell < s.1.engine.nextCell ∧ (s.1.engine.cells cell).recvFin = true

theorem Inv.step {s : State × Set CellId} (h : Inv s)
    (hcond : FinFirst s a) (hstep : s.1.step a = some s') :
    Inv (s', observeTerminated s.1 a s.2) := by
  have hgrows := grows_step hstep
  refine ⟨hgrows.ok h.cells, h.tame.step hstep, ?_⟩
  rintro cell (hcell | ⟨w, s'', hw, hstep', hends⟩)
  · obtain ⟨hlt, hfin⟩ := h.fin cell hcell
    exact ⟨lt_of_lt_of_le hlt hgrows.nextCell, hgrows.fin cell hlt hfin⟩
  · cases hstep.symm.trans hstep'
    obtain ⟨hreset, hlost⟩ := hcond w hw
    rcases hends with ⟨hgone, hcell⟩ | ⟨slot, id, -, -, his⟩
    · obtain ⟨herror, hnext⟩ := step_gone h.tame hstep hw hgone
      obtain ⟨hwaiting, hfin⟩ := hlost herror
      rcases hcell with ⟨id, hid⟩ | ⟨hge, hlt⟩
      · obtain ⟨slot, hslot, hstream⟩ := work_streams hw hid
        have hlt := h.cells.owned _ slot id cell hslot hstream
        exact ⟨lt_of_lt_of_le hlt hgrows.nextCell, hgrows.fin cell hlt (hfin id cell hid)⟩
      · rw [hnext hwaiting] at hlt
        exact absurd hlt (not_lt.mpr hge)
    · exact absurd his (hreset id)

theorem terminated_completes {s : State × Set CellId} (hs : terminating.ReachableVia FinFirst s) :
    ∀ cell ∈ s.2, Completes (s.1.engine.cells cell) := by
  have hinv : Inv s := by
    refine hs.observed_invariant ?_ fun _ _ _ _ h hcond hstep => h.step hcond hstep
    rintro s ⟨config, networkTiles, rfl⟩
    refine ⟨cellsOk_initial config networkTiles, fun k slot hslot => ?_, fun cell h => h.elim⟩
    cases hslot
  intro cell hcell
  exact completes_of_fin (hinv.fin cell hcell).2 (hinv.cells.woken cell)

/-! The application opens a stream to a client and reads from it. -/

def client : DatagramEvent :=
  .newConnection (.initial false smallWindow (datagram [.decrypted handshakeDone]) [] ⟨[], 0⟩)

def connect : List Label :=
  [.arrive 0 [0], .runOnce 0]

def openFirst : List Label :=
  [.accept 0, .sendOpen ⟨0, 0⟩, .receive .nothing replies, .receive .nothing replies]

/-- The reader goes to sleep, and `run_once` ends and finds another packet. -/
def parkAndReceive : List Label :=
  [.openBi ⟨0, 0⟩ 0, .read 0 1 7, .command commandInput, transmit [], transmit [], transmit [],
    noTimeout, transmit [], .arrive 0 [0], .runOnce 0]

def receiveFrames (frames : List Frame) : Label :=
  .receive (.forConnection 0 (datagram [.decrypted
    { initialPacket frames with kind := .oneRtt, peerParams := none }])) replies

def noWork (s : State × Set CellId) (a : Label) : Bool :=
  (work s.1 a).isNone

theorem finFirst_of_noWork (s : State × Set CellId) (a : Label) (h : noWork s a = true) :
    FinFirst s a := by
  intro w hw
  rw [noWork, hw] at h
  cases h

theorem reachable_work {s s₁ s₂ : State × Set CellId} (hs : terminating.ReachableVia FinFirst s)
    (labels : List Label) (a : Label) (hrun : terminating.runChecked noWork s labels = some s₁)
    (hw : work s₁.1 a = some w)
    (herror : w.inner.error = none) (hreset : ∀ id, ¬ IsReset w.inner.streams id)
    (hstep : terminating.step s₁ a = some s₂) : terminating.ReachableVia FinFirst s₂ := by
  refine .step (.of_runChecked finFirst_of_noWork hs hrun) (fun w' hw' => ?_) hstep
  cases hw.symm.trans hw'
  exact ⟨hreset, fun h => absurd herror h⟩

theorem not_isReset {s : StreamsState}
    (hrecv : ∀ recv, s.getRecv id = some recv → recv.isReceiving = true) : ¬ IsReset s id := by
  rintro ⟨recv, size, code, hget, hstate⟩
  have hreceiving := hrecv recv hget
  simp [RecvHalf.Recv.isReceiving, hstate] at hreceiving

theorem not_isReset_of_none {s : StreamsState} (h : s.recv id = none) : ¬ IsReset s id :=
  not_isReset (by simp [StreamsState.getRecv, h])

/-- The receiving halves when only those of the first stream were written. -/
def written (halves : List (Option (Option RecvHalf.StreamRecv))) :
    StreamId → Option (Option RecvHalf.StreamRecv) :=
  halves.foldr (fun half recv => update recv firstStream half) fun _ => none

theorem written_of_ne (halves : List (Option (Option RecvHalf.StreamRecv))) {id : StreamId}
    (hne : id ≠ firstStream) : written halves id = none := by
  induction halves with
  | nil => rfl
  | cons _ _ ih => exact (update_of_ne hne _ _).trans ih

theorem not_isReset_of_written {s : StreamsState}
    (halves : List (Option (Option RecvHalf.StreamRecv))) (hs : s.recv = written halves)
    {recv : RecvHalf.Recv} (hfirst : s.getRecv firstStream = some recv)
    (hreceiving : recv.isReceiving = true) (id : StreamId) : ¬ IsReset s id := by
  rcases eq_or_ne id firstStream with rfl | hne
  · refine not_isReset fun recv' hrecv' => ?_
    cases hfirst.symm.trans hrecv'
    exact hreceiving
  · exact not_isReset_of_none (hs ▸ written_of_ne halves hne)

theorem finFirst_of_written {s : State × Set CellId} (hw : work s.1 a = some w)
    (halves : List (Option (Option RecvHalf.StreamRecv)))
    (hs : w.inner.streams.recv = written halves)
    (hfirst : w.inner.streams.recv firstStream = none)
    (hremote : ∀ dir, w.inner.streams.nextRemote dir = w.inner.streams.nextReportedRemote dir)
    {cell : CellId} (hstreams : w.streams = update (fun _ => none) firstStream (some cell))
    (hfin : (s.1.engine.cells cell).recvFin = true) : FinFirst s a := by
  intro w' hw'
  cases hw.symm.trans hw'
  refine ⟨fun id => not_isReset_of_none ?_, fun _ => ⟨hremote, fun id cell hcell => ?_⟩⟩
  · rcases eq_or_ne id firstStream with rfl | hne
    · exact hfirst
    · exact hs ▸ written_of_ne halves hne
  · rw [hstreams, update_apply] at hcell
    split_ifs at hcell
    cases hcell
    exact hfin

/-- The FIN of the stream is delivered before the connection is lost. -/
theorem finished_completes : ∃ s, terminating.ReachableVia FinFirst s ∧ 0 ∈ s.2 ∧
    ∀ cell ∈ s.2, Completes (s.1.engine.cells cell) := by
  have hreach₁ := reachable_work (s := (.initial config 1, ∅)) (.initial ⟨⟨config, 1, rfl⟩, rfl⟩)
    connect (.receive client replies) rfl rfl rfl (fun _ => not_isReset_of_none rfl) rfl
  have hreach₂ := reachable_work hreach₁ openFirst (.command commandInput) rfl rfl rfl
    (fun _ => not_isReset_of_none rfl) rfl
  have hreach₃ := reachable_work hreach₂ parkAndReceive
    (receiveFrames [.stream ⟨firstStream, 0, true, []⟩]) rfl rfl rfl
    (not_isReset_of_written [_, _, _] rfl rfl rfl) rfl
  have hreach₄ : terminating.ReachableVia FinFirst _ := .of_runChecked finFirst_of_noWork hreach₃
    (rfl : terminating.runChecked noWork _ [.arrive 0 [0]] = some _)
  have hreach := hreach₄.step (finFirst_of_written rfl [_, _, _, _] rfl rfl
    (fun dir => by cases dir <;> rfl) rfl rfl)
    (rfl : terminating.step _ (receiveFrames [.close true]) = some _)
  exact ⟨_, hreach, .inr ⟨_, _, rfl, rfl, .inl ⟨rfl, .inl ⟨firstStream, rfl⟩⟩⟩,
    terminated_completes hreach⟩

def parkedReader : List Label :=
  connect ++ [.receive client replies] ++ openFirst ++ [.command commandInput] ++ parkAndReceive

/-- The step ends a stream whose reader sleeps, and does not wake it. -/
theorem exists_not_completes {cell : CellId} {task : Task}
    (hrun : system.run (.initial config 1) parkedReader = some s) (hstep : s.step a = some s')
    (hw : work s a = some w) (hends : Terminates s w s' cell)
    (hparked : (s'.engine.cells cell).recvWaker = some task) :
    ∃ t, terminating.Reachable (s', t) ∧ cell ∈ t ∧ ¬ Completes (s'.engine.cells cell) := by
  have hreach : system.Reachable s := .of_run (.initial ⟨config, 1, rfl⟩) hrun
  obtain ⟨t, ht⟩ := hreach.exists_observed
  have hnext : terminating.step (s, t) a = some (s', observeTerminated s a t) :=
    Option.map_eq_some_iff.mpr ⟨s', hstep, rfl⟩
  refine ⟨observeTerminated s a t, .step ht trivial hnext, .inr ⟨w, s', hw, hstep, hends⟩, ?_⟩
  rintro ⟨hnone, -⟩
  rw [hparked] at hnone
  cases hnone

/-- The stream is reset, or the connection is closed by its peer: the reader finds no
data, sleeps on, and its next read is pending. -/
theorem parked_not_completes :
    (∃ s, terminating.Reachable s ∧ 0 ∈ s.2 ∧ (s.1.engine.cells 0).recvData.items = [] ∧
      (s.1.engine.slot 0).isSome ∧ ¬ Completes (s.1.engine.cells 0)) ∧
    ∃ s, terminating.Reachable s ∧ 0 ∈ s.2 ∧ (s.1.engine.cells 0).recvData.items = [] ∧
      s.1.engine.slot 0 = none ∧ ¬ Completes (s.1.engine.cells 0) := by
  constructor
  · obtain ⟨t, ht, hmem, hnot⟩ := exists_not_completes rfl
      (rfl : State.step _ (receiveFrames [.resetStream firstStream 5 0]) = _) rfl
      (.inr ⟨_, firstStream, rfl, rfl, _, 0, 5, rfl, rfl⟩) rfl
    exact ⟨(_, t), ht, hmem, rfl, rfl, hnot⟩
  · obtain ⟨t, ht, hmem, hnot⟩ := exists_not_completes rfl
      (rfl : State.step _ (receiveFrames [.close true]) = _) rfl
      (.inl ⟨rfl, .inl ⟨firstStream, rfl⟩⟩) rfl
    exact ⟨(_, t), ht, hmem, rfl, rfl, hnot⟩

end Quac.TerminalSignal
