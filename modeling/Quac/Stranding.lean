import Quac.ReadThrough
import Quac.ReceivePath
import Quac.TerminalSignal

/-!
What a stream has for the application reaches its cell, as long as the cell's queue
has room for it.
-/

namespace Quac.Stranding

open Bridge CellSteps EngineSettles EngineSteps Function
open HandleIsolation (config replies)
open Identifiers Lib.Slabs Lib.Transition
open ProtoConnection hiding State
open ReadThrough ReadableStreams ReceivePath RecvSteps StreamAccess StreamSignals
open Streams
open TerminalSignal (client connect openFirst parkAndReceive receiveFrames written_of_ne)
open Tile TileEngine TileWork
open TimerSync (transmit noTimeout)
open WriteIntegrity (firstStream commandInput)

variable {cells : CellId → StreamCell} {id : StreamId} {s : State} {a : Label}

def used (cells : CellId → StreamCell) (streams : StreamId → Option CellId) (id : StreamId) : Nat :=
  match streams id with
  | some cell => (cells cell).recvData.items.length
  | none => 0

variable {streams : StreamId → Option CellId}

theorem used_update {cell : CellId} {value : StreamCell} (h : streams id ≠ some cell) :
    used (update cells cell value) streams id = used cells streams id := by
  unfold used
  split
  · rename_i other hother
    rw [update_of_ne]
    rintro rfl
    exact h hother
  · rfl

/-- What is there to read fits into the queue, and one read more.  The stream has a
cell, or gets one when it is accepted and then drained. -/
def Fits (cells : CellId → StreamCell) (streams : StreamId → Option CellId) (s : StreamsState) :
    Prop :=
  ∀ id, Readable s id →
    pieces s id < recvDataCap - used cells streams id ∧ (id.dir = .uni → streams id ≠ none)

structure SlotOk (slot : ConnectionSlot) : Prop where
  fresh : FreshFree slot.inner.streams
  reported : ∀ dir, slot.inner.streams.nextReportedRemote dir ≤ slot.inner.streams.nextRemote dir
  known : ∀ id cell, slot.streams id = some cell → id.initiator ≠ slot.inner.streams.side →
    id.index < slot.inner.streams.nextRemote id.dir
  injective : ∀ id id' cell, slot.streams id = some cell → slot.streams id' = some cell → id = id'

/-- A stream with a cell that has something to read is announced; `except` says for
which it may be forgotten. -/
structure Draining (except : StreamId → Prop) (cells : CellId → StreamCell) (nextCell : CellId)
    (slot : ConnectionSlot) : Prop extends SlotOk slot where
  owned : ∀ id cell, slot.streams id = some cell → cell < nextCell
  fits : Fits cells slot.streams slot.inner.streams
  announced : ∀ id cell, slot.streams id = some cell → Readable slot.inner.streams id →
    .readable id ∈ slot.inner.streams.events ∨ except id

variable {slot : ConnectionSlot}

theorem SlotOk.reported_of_advances (h : SlotOk slot) {s : StreamsState}
    (hs : Advances slot.inner.streams s) (dir : Dir) :
    s.nextReportedRemote dir ≤ s.nextRemote dir := by
  rw [hs.nextReportedRemote]
  exact le_trans (h.reported dir) (hs.nextRemote dir)

namespace Draining

variable {except except' : StreamId → Prop} {cells cells' : CellId → StreamCell} {nextCell : CellId}
  {slot slot' : ConnectionSlot}

theorem of_streams (h : Draining except cells nextCell slot)
    (hstreams : slot'.streams = slot.streams)
    (hside : slot'.inner.streams.side = slot.inner.streams.side)
    (hremote : ∀ dir, slot.inner.streams.nextRemote dir ≤ slot'.inner.streams.nextRemote dir)
    (hreported : ∀ dir,
      slot'.inner.streams.nextReportedRemote dir ≤ slot'.inner.streams.nextRemote dir)
    (hfresh : FreshFree slot'.inner.streams)
    (hevents : ∀ id, .readable id ∈ slot.inner.streams.events ∨ except id →
      Readable slot'.inner.streams id → .readable id ∈ slot'.inner.streams.events ∨ except' id)
    (hreadable : ∀ id, Readable slot'.inner.streams id → Readable slot.inner.streams id ∧
      pieces slot'.inner.streams id = pieces slot.inner.streams id) :
    Draining except' cells nextCell slot' where
  fresh := hfresh
  reported := hreported
  known id cell hcell hpeer := by
    rw [hstreams] at hcell
    rw [hside] at hpeer
    exact lt_of_lt_of_le (h.known id cell hcell hpeer) (hremote id.dir)
  injective := by
    rw [hstreams]
    exact h.injective
  owned := by
    rw [hstreams]
    exact h.owned
  fits id hid := by
    obtain ⟨hread, hpieces⟩ := hreadable id hid
    rw [hstreams, hpieces]
    exact h.fits id hread
  announced id cell hcell hid := by
    rw [hstreams] at hcell
    exact hevents id (h.announced id cell hcell (hreadable id hid).1) hid

theorem of_quiet (h : Draining except cells nextCell slot) (hstreams : slot'.streams = slot.streams)
    (hquiet : Quiet slot.inner.streams slot'.inner.streams) :
    Draining except cells nextCell slot' :=
  h.of_streams hstreams hquiet.side hquiet.nextRemote (h.reported_of_advances hquiet.toAdvances)
    (hquiet.fresh h.fresh) (fun id hid _ => hid.imp_left (hquiet.announced id))
    fun _ hid => hquiet.readable h.fresh hid

theorem of_poll {event : Option Event} (h : Draining (fun _ => False) cells nextCell slot)
    (hstreams : slot'.streams = slot.streams) (hpoll : slot.inner.poll = (event, slot'.inner)) :
    Draining (fun id => event = some (.stream (.readable id))) cells nextCell slot' := by
  obtain ⟨hrecv, hfree, hevents, hside, hremote, hreported⟩ := poll_readable hpoll
  have hhalf : ∀ id, half slot'.inner.streams id = half slot.inner.streams id :=
    fun id => half_of_recv (congrFun hrecv id)
  refine h.of_streams hstreams hside (fun dir => ?_) (fun dir => ?_) ?_ (fun id hid _ => ?_)
    fun id hid => ?_
  · exact le_of_eq (congrFun hremote dir).symm
  · rw [hreported, hremote]
    exact h.reported dir
  · rw [FreshFree, hfree]
    exact h.fresh
  · exact hevents id (hid.resolve_right fun h => h)
  · exact ⟨(readable_congr (hhalf id)).mp hid, pieces_congr (hhalf id)⟩

theorem of_drained (h : Draining (· = id) cells nextCell slot)
    (hstreams : slot'.streams = slot.streams)
    (hdrained : Drained id slot.inner.streams slot'.inner.streams) :
    Draining (fun _ => False) cells nextCell slot' := by
  have hempty := hdrained.empty h.fresh
  refine h.of_streams hstreams hdrained.side hdrained.nextRemote
    (h.reported_of_advances hdrained.toAdvances) (hdrained.fresh h.fresh) (fun j hj hread => ?_)
      fun j hread => ?_
  · rcases hj with hj | rfl
    · exact .inl (hdrained.announced j hj)
    · exact absurd hread hempty
  · refine hdrained.others h.fresh j ?_ hread
    rintro rfl
    exact hempty hread

theorem of_cells (h : Draining except cells nextCell slot)
    (hused : ∀ id, Readable slot.inner.streams id →
      used cells' slot.streams id = used cells slot.streams id) :
    Draining except cells' nextCell slot := by
  refine ⟨h.toSlotOk, h.owned, fun id hid => ?_, h.announced⟩
  rw [hused id hid]
  exact h.fits id hid

theorem openCell (h : Draining except cells nextCell slot)
    (hstreams : slot'.streams = update slot.streams id (some nextCell))
    (hinner : slot'.inner = slot.inner) (hknown : id.initiator ≠ slot.inner.streams.side →
      id.index < slot.inner.streams.nextRemote id.dir) (hexcept : ∀ j, except j → except' j)
    (hid : Readable slot.inner.streams id → .readable id ∈ slot.inner.streams.events ∨ except' id) :
    Draining except' (update cells nextCell .new) (nextCell + 1) slot' := by
  have hcell : ∀ {j cell}, slot'.streams j = some cell →
      j = id ∧ cell = nextCell ∨ j ≠ id ∧ slot.streams j = some cell := by
    intro j cell hj
    rw [hstreams, update_apply] at hj
    split_ifs at hj with heq
    · cases hj
      exact .inl ⟨heq, rfl⟩
    · exact .inr ⟨heq, hj⟩
  refine ⟨⟨?_, ?_, fun j cell hj hpeer => ?_, fun j j' cell hj hj' => ?_⟩, fun j cell hj => ?_,
    fun j hj => ?_, fun j cell hj hread => ?_⟩
  · rw [hinner]
    exact h.fresh
  · rw [hinner]
    exact h.reported
  · rw [hinner] at hpeer ⊢
    rcases hcell hj with ⟨rfl, -⟩ | ⟨-, hj⟩
    · exact hknown hpeer
    · exact h.known j cell hj hpeer
  · -- The new cell is no other stream's.
    rcases hcell hj with ⟨rfl, rfl⟩ | ⟨-, hj⟩ <;> rcases hcell hj' with ⟨rfl, heq⟩ | ⟨-, hj'⟩
    · rfl
    · exact absurd (h.owned j' _ hj') (lt_irrefl _)
    · subst heq
      exact absurd (h.owned j _ hj) (lt_irrefl _)
    · exact h.injective j j' cell hj hj'
  · rcases hcell hj with ⟨-, rfl⟩ | ⟨-, hj⟩
    · exact Nat.lt_succ_self _
    · exact Nat.lt_succ_of_lt (h.owned j cell hj)
  · rw [hinner] at hj ⊢
    obtain ⟨hroom, huni⟩ := h.fits j hj
    rw [hstreams]
    rcases eq_or_ne j id with rfl | hne
    · simp only [used, update_self]
      exact ⟨lt_of_lt_of_le hroom (Nat.sub_le _ _), fun _ h => by cases h⟩
    · have hused : used (update cells nextCell .new)
          (update slot.streams id (some nextCell)) j = used cells slot.streams j := by
        rw [used_update]
        · simp only [used, update_of_ne hne]
        · rw [update_of_ne hne]
          exact fun hj => lt_irrefl _ (h.owned j nextCell hj)
      rw [hused, update_of_ne hne]
      exact ⟨hroom, huni⟩
  · rw [hinner] at hread ⊢
    rcases hcell hj with ⟨rfl, -⟩ | ⟨-, hj⟩
    · exact hid hread
    · exact (h.announced j cell hj hread).imp_right (hexcept j)

theorem mono (h : Draining except cells nextCell slot) (hexcept : ∀ id, except id → except' id) :
    Draining except' cells nextCell slot :=
  ⟨h.toSlotOk, h.owned, h.fits, fun id cell hcell hread =>
    (h.announced id cell hcell hread).imp_right (hexcept id)⟩

theorem announced_of_uni (h : Draining (fun _ => False) cells nextCell slot) {id : StreamId}
    (huni : id.dir = .uni) (hread : Readable slot.inner.streams id) :
    .readable id ∈ slot.inner.streams.events := by
  obtain ⟨cell, hcell⟩ := Option.ne_none_iff_exists'.mp ((h.fits id hread).2 huni)
  exact (h.announced id cell hcell hread).resolve_right fun h => h

theorem of_accept (h : Draining except cells nextCell slot) {dir : Dir} {streams : StreamsState}
    (haccept : acceptStream slot.inner.streams dir = (some id, streams)) :
    Draining except cells nextCell { slot with inner := { slot.inner with streams } } ∧
      id.dir = dir ∧ id.index < streams.nextRemote id.dir := by
  unfold acceptStream at haccept
  split at haccept
  · cases haccept
  · rename_i hnone
    have hhalf : ∀ j, half streams j = half slot.inner.streams j := by
      intro j
      cases haccept
      exact half_of_recv rfl
    cases haccept
    have hless : slot.inner.streams.nextReportedRemote dir < slot.inner.streams.nextRemote dir :=
      Nat.lt_of_le_of_ne (h.reported dir) (Ne.symm hnone)
    refine ⟨h.of_streams rfl rfl (fun _ => le_rfl) (fun dir' => ?_) h.fresh
      (fun _ hid _ => hid) fun j hj => ?_, rfl, hless⟩
    · dsimp only
      rw [update_apply]
      split_ifs with heq
      · rw [heq]
        exact hless
      · exact h.reported dir'
    · exact ⟨(readable_congr (hhalf j)).mp hj, pieces_congr (hhalf j)⟩

theorem of_not_readable (h : Draining (· = id) cells nextCell slot)
    (hid : ∀ cell, slot.streams id = some cell → ¬ Readable slot.inner.streams id) :
    Draining (fun _ => False) cells nextCell slot := by
  refine ⟨h.toSlotOk, h.owned, h.fits, fun j cell hj hread => ?_⟩
  rcases h.announced j cell hj hread with hevent | rfl
  · exact .inl hevent
  · exact absurd hread (hid cell hj)

end Draining

def Drains (except : StreamId → Prop) (k : Nat) (e : Engine) : Prop :=
  ∀ slot, e.slot k = some slot → Draining except e.cells e.nextCell slot

namespace Drains

variable {except except' : StreamId → Prop} {k : Nat} {e : Engine}

theorem of_slot_none (h : e.slot k = none) : Drains except k e := by
  intro slot hslot
  rw [h] at hslot
  cases hslot

theorem setSlot {old : ConnectionSlot} (hold : e.slot k = some old)
    (h : Draining except e.cells e.nextCell slot) : Drains except k (e.setSlot k slot) := by
  intro slot' hslot'
  rw [slot_setSlot_self hold] at hslot'
  cases hslot'
  exact h

theorem openStreamCell (hslot : e.slot k = some slot)
    (h : Draining except e.cells e.nextCell slot) (isLocal : Bool)
    (hknown : id.initiator ≠ slot.inner.streams.side →
      id.index < slot.inner.streams.nextRemote id.dir) (hexcept : ∀ j, except j → except' j)
    (hid : Readable slot.inner.streams id → .readable id ∈ slot.inner.streams.events ∨ except' id) :
    Drains except' k (e.openStreamCell k id isLocal) := by
  unfold Engine.openStreamCell
  simp only [hslot]
  intro slot' hslot'
  cases (slot_setSlot_self hslot
    { slot with streams := update slot.streams id (some e.nextCell) }).symm.trans hslot'
  exact h.openCell rfl rfl hknown hexcept hid

theorem drainReadableStream (h : Drains (· = id) k e) :
    Drains (fun _ => False) k (e.drainReadableStream k id) := by
  unfold Engine.drainReadableStream
  split
  · exact of_slot_none (by assumption)
  · rename_i slot hslot
    have hslot' := h slot hslot
    split
    · rename_i hnone
      intro s hs
      cases hslot.symm.trans hs
      refine hslot'.of_not_readable fun cell hcell => ?_
      rw [hnone] at hcell
      cases hcell
    · rename_i cell hcell
      have hroom : Readable slot.inner.streams id → pieces slot.inner.streams id <
          recvDataCap - (e.cells cell).recvData.items.length := by
        intro hread
        have hfits := (hslot'.fits id hread).1
        rwa [used, hcell] at hfits
      dsimp only
      split_ifs with hfull
      · intro s hs
        cases hslot.symm.trans hs
        refine hslot'.of_not_readable fun _ _ hread => ?_
        have hless := hroom hread
        omega
      · split
        · rename_i error streams hnew
          exact setSlot hslot (hslot'.of_drained rfl (drained_error hnew))
        · rename_i chunks hnew
          have hdrained := drained_read hnew (Nat.pos_of_ne_zero hfull) hroom slot.inner.pending
          intro s hs
          cases (slot_setSlot_self hslot _).symm.trans hs
          refine Draining.of_cells (hslot'.of_drained rfl hdrained) fun j hj => ?_
          -- Only the cell of the drained stream changes.
          have hne : j ≠ id := by
            rintro rfl
            exact hdrained.empty hslot'.fresh hj
          exact used_update fun hother => hne (hslot'.injective j id cell hother hcell)

theorem of_connections {e' : Engine} (h : Drains except k e)
    (hslots : e'.connections = e.connections)
    (hcells : e'.cells = e.cells) (hnext : e'.nextCell = e.nextCell) : Drains except k e' := by
  intro slot hslot
  rw [hcells, hnext]
  exact h slot (by rw [Engine.slot, ← hslots]; exact hslot)

theorem markPendingSend (h : Drains except k e) : Drains except k (e.markPendingSend k) := by
  unfold Engine.markPendingSend
  split
  · rename_i slot hslot
    split_ifs
    · exact h
    · have hset : Drains except k (e.setSlot k { slot with hasPendingSend := true }) :=
        setSlot hslot ((h slot hslot).of_quiet rfl .refl)
      exact hset.of_connections rfl rfl rfl
  · exact h

theorem wakeSender (h : Drains except k e) (id : StreamId) :
    Drains except k (e.wakeSender k id) := by
  unfold Engine.wakeSender
  split
  · intro slot hslot
    refine (h slot hslot).of_cells fun j _ => ?_
    unfold used
    split
    · dsimp only [Engine.setCell]
      rw [update_apply]
      split_ifs with heq
      · rw [heq]
      · rfl
    · rfl
  · exact h

theorem loopRule (replies : Replies) (k ch : Nat) :
    LoopRule replies k ch (Drains (fun _ => False) k) where
  poll e slot event inner h hslot hpoll _ hreadable := by
    refine setSlot hslot (Draining.mono ((h slot hslot).of_poll rfl hpoll) fun id heq => ?_)
    exact hreadable id (Option.some.inj heq)
  pollNone e slot inner h hslot hpoll := by
    refine setSlot hslot (Draining.mono ((h slot hslot).of_poll rfl hpoll) fun id heq => ?_)
    cases heq
  readable e slot id inner h hslot hpoll := by
    refine drainReadableStream (setSlot hslot (Draining.mono ((h slot hslot).of_poll rfl hpoll) ?_))
    intro j heq
    cases heq
    rfl
  acceptBi e slot id streams h hslot haccept := by
    obtain ⟨haccepted, -, hless⟩ := (h slot hslot).of_accept haccept
    exact drainReadableStream (openStreamCell (slot_setSlot_self hslot _) haccepted false
      (fun _ => hless) (fun _ h => h.elim) fun _ => .inr rfl)
  acceptUni e slot id streams h hslot haccept := by
    obtain ⟨haccepted, huni, hless⟩ := (h slot hslot).of_accept haccept
    exact openStreamCell (slot_setSlot_self hslot _) haccepted false (fun _ => hless) (fun _ h => h)
      fun hread => .inl (haccepted.announced_of_uni huni hread)
  acceptNone e slot dir streams h hslot haccept := by
    unfold acceptStream at haccept
    split_ifs at haccept <;> cases haccept
    exact setSlot hslot (h slot hslot)
  wakeSender e id h := h.wakeSender id
  openNone e slot dir streams h hslot hopen := by
    have hquiet : Quiet slot.inner.streams _ := .openStream slot.inner.state.isClosed dir
    rw [hopen] at hquiet
    exact setSlot hslot ((h slot hslot).of_quiet rfl hquiet)
  openSome e slot dir id streams h hslot hopen := by
    have hquiet : Quiet slot.inner.streams _ := .openStream slot.inner.state.isClosed dir
    rw [hopen] at hquiet
    obtain ⟨hlocal, hempty⟩ := openStream_eq_some (h slot hslot).fresh hopen
    have hopened : Draining (fun _ => False) e.cells e.nextCell
        { slot with inner := { slot.inner with streams } } := (h slot hslot).of_quiet rfl hquiet
    refine openStreamCell (slot_setSlot_self hslot _) hopened true
      (fun hpeer => absurd hlocal hpeer)
      (fun _ h => h) fun hread => .inl ?_
    rcases hdir : id.dir with _ | _
    · exact absurd hread (hempty hdir)
    · exact hopened.announced_of_uni hdir hread
  markPendingSend e h := h.markPendingSend
  endpointEvent e slot event inner n h hslot hpoll := by
    have hstreams : inner.streams = slot.inner.streams := by
      unfold Connection.pollEndpointEvents at hpoll
      split at hpoll <;> cases hpoll
      rfl
    have hkeeps : ∀ inner', inner'.streams = slot.inner.streams →
        Drains (fun _ => False) k (e.setInner k slot inner') := by
      intro inner' heq
      refine setSlot hslot ((h slot hslot).of_quiet rfl ?_)
      rw [heq]
      exact .refl
    split_ifs
    · exact (hkeeps (inner.handleEvent (replies n)) hstreams).of_connections rfl rfl rfl
    · exact (hkeeps inner hstreams).of_connections rfl rfl rfl
  lost e slot reason inner h hslot hpoll := of_slot_none (slot_removeLost _ k ch)

end Drains

structure Rest (slot : ConnectionSlot) : Prop extends SlotOk slot where
  empty : ∀ id cell, slot.streams id = some cell → ¬ Readable slot.inner.streams id

theorem SlotOk.of_advances {slot' : ConnectionSlot} (h : SlotOk slot)
    (hstreams : slot'.streams = slot.streams)
    (hs : Advances slot.inner.streams slot'.inner.streams) : SlotOk slot' where
  fresh := hs.fresh h.fresh
  reported := h.reported_of_advances hs
  known id cell hcell hpeer := by
    rw [hstreams] at hcell
    rw [hs.side] at hpeer
    exact lt_of_lt_of_le (h.known id cell hcell hpeer) (hs.nextRemote id.dir)
  injective := by
    rw [hstreams]
    exact h.injective

namespace Rest

variable {slot slot' : ConnectionSlot}

theorem of_quiet (h : Rest slot) (hstreams : slot'.streams = slot.streams)
    (hs : Quiet slot.inner.streams slot'.inner.streams) : Rest slot' := by
  refine ⟨h.of_advances hstreams hs.toAdvances, fun id cell hcell hread => ?_⟩
  rw [hstreams] at hcell
  exact h.empty id cell hcell (hs.readable h.fresh hread).1

theorem draining (h : Rest slot) (hstreams : slot'.streams = slot.streams)
    (hs : Receives slot.inner.streams slot'.inner.streams) {nextCell : CellId}
    (howned : ∀ id cell, slot.streams id = some cell → cell < nextCell)
    (hfits : Fits cells slot'.streams slot'.inner.streams) :
    Draining (fun _ => False) cells nextCell slot' := by
  refine ⟨h.of_advances hstreams hs.toAdvances, hstreams ▸ howned, hfits,
    fun id cell hcell hread => ?_⟩
  rw [hstreams] at hcell
  rcases hs.readable h.fresh id hread with hread | hevent | ⟨hpeer, hnew⟩
  · exact absurd hread (h.empty id cell hcell)
  · exact .inl hevent
  · exact absurd (h.known id cell hcell hpeer) (not_lt.mpr hnew)

end Rest

/-- When all events are handled, all announced streams have been read. -/
theorem drain_rest {replies : Replies} {k : Nat} {e : Engine} {slot' : ConnectionSlot}
    (h : Drains (fun _ => False) k e)
    (hslot' : (Engine.drainConnectionEvents replies e k).slot k = some slot') : Rest slot' := by
  have hdrains : Drains (fun _ => False) k (Engine.drainConnectionEvents replies e k) := by
    rcases hslot : e.slot k with _ | slot
    · simp only [Engine.drainConnectionEvents, hslot]
      exact h
    · exact (Drains.loopRule replies k slot.handle).headRule.drainConnectionEvents hslot h
  have hsettled := drainConnectionEvents_settled replies e k slot' hslot'
  refine ⟨(hdrains slot' hslot').toSlotOk, fun id cell hcell hread => ?_⟩
  rcases (hdrains slot' hslot').announced id cell hcell hread with hevent | hfalse
  · rw [hsettled.streamEvents] at hevent
    cases hevent
  · exact hfalse

def Rested (e : Engine) : Prop :=
  ∀ k slot, e.slot k = some slot → Rest slot

namespace Rested

variable {e e' : Engine} {k : Nat}

theorem drained (h : Rested e) (replies : Replies) (hslots : ∀ j, j ≠ k → e'.slot j = e.slot j)
    (hdrains : Drains (fun _ => False) k e') :
    Rested (Engine.drainConnectionEvents replies e' k) := by
  refine EverySlot.of_slots
    (k := k) h (fun j hj => ?_) fun slot' hslot' => drain_rest hdrains hslot'
  exact ((Local.drainConnectionEvents replies e' k).slots j hj).trans (hslots j hj)

theorem of_moves (h : Rested e) (hmoves : Moves .sends k e e') : Rested e' := by
  refine EverySlot.of_moves h hmoves ?_ fun h => h.elim
  rintro slot inner _ _ (rfl | ⟨input, rfl⟩) hrest
  · exact hrest.of_quiet rfl .refl
  · exact hrest.of_quiet rfl (quiet_pollTransmit slot.inner input)

theorem withSlot (h : Rested e) (hcells : CellsOk e) (input : Engine.CommandInput)
    (hslot : e.slot k = some slot)
    (hfits : Fits e.cells slot.streams slot.inner.streams) {f : Connection → Connection}
    (hf : Quiet slot.inner.streams (f slot.inner).streams) : Rested (e.withSlot input k f) := by
  have hdraining : Draining (fun _ => False) e.cells e.nextCell slot :=
    (h k slot hslot).draining rfl Quiet.refl.receives
      (fun id cell => hcells.owned k slot id cell hslot)
      hfits
  have hset : Drains (fun _ => False) k (e.setInner k slot (f slot.inner)) :=
    .setSlot hslot (hdraining.of_quiet rfl hf)
  unfold Engine.withSlot
  simp only [hslot]
  exact h.drained input.replies (worked_act hslot (f slot.inner)).others hset.markPendingSend

theorem processCommand (h : Rested e) (hcells : CellsOk e) (input : Engine.CommandInput)
    {cmd : TileAppCommand} (hslot : e.slot cmd.conn = some slot)
    (hfits : Fits e.cells slot.streams slot.inner.streams) :
    Rested (e.processCommand input cmd) := by
  cases cmd with
  | openStream conn dir =>
    have hslot : e.slot conn = some slot := hslot
    have hdraining : Drains (fun _ => False) conn e := by
      intro s hs
      cases hslot.symm.trans hs
      exact (h conn slot hslot).draining rfl Quiet.refl.receives
        (fun id cell => hcells.owned conn slot id cell hslot) hfits
    have hquiet : Quiet slot.inner.streams _ := .openStream slot.inner.state.isClosed dir
    simp only [Engine.processCommand, hslot]
    rcases hopen : openStream slot.inner.streams slot.inner.state.isClosed dir
      with ⟨_ | id, streams⟩
    · rw [hopen] at hquiet
      exact EverySlot.setSlot h hslot ((h conn slot hslot).of_quiet rfl hquiet)
    · have hopened := (Drains.loopRule input.replies conn 0).openSome e slot dir id streams
        hdraining hslot hopen
      refine h.drained input.replies ?_ hopened.markPendingSend
      refine (Local.of_moves (p := .any) ?_).slots
      exact (moves_opened hslot trivial trivial id true).trans moves_markPendingSend
  | write _ stream data =>
    rw [Engine.processCommand]
    refine h.withSlot hcells input hslot hfits (.of_sameReceive ?_)
    have hwrite := sameReceive_writeStream slot.inner.streams slot.inner.state.isClosed stream data
    split_ifs
    · exact hwrite.trans (sameReceive_finishStream _ stream)
    · exact hwrite
  | finish _ stream =>
    rw [Engine.processCommand]
    exact h.withSlot hcells input hslot hfits (.of_sameReceive (sameReceive_finishStream _ stream))
  | resetStream _ stream =>
    rw [Engine.processCommand]
    exact h.withSlot hcells input hslot hfits
      (.of_sameReceive (sameReceive_resetStream _ _ stream _))
  | closeConn =>
    rw [Engine.processCommand]
    refine h.withSlot hcells input hslot hfits ?_
    rw [streams_closeInner]
    exact .refl

end Rested

theorem freshFree_new (config : TransportConfig) : FreshFree (Connection.new config).streams := by
  refine (Quiet.of_admits ((admits_insertRemote _ .bi 0 _).trans
    (admits_insertRemote _ .uni 0 _))).fresh ?_
  intro recv hmem
  cases hmem

theorem rest_new (config : TransportConfig) :
    Rest ⟨0, .new config, none, false, fun _ => none, 0⟩ where
  fresh := freshFree_new config
  reported dir := by
    have hcounts : SameCounts _ (Connection.new config).streams :=
      .of_admits ((admits_insertRemote _ .bi 0 _).trans (admits_insertRemote _ .uni 0 _))
    exact le_of_eq ((congrFun hcounts.nextReportedRemote dir).trans
      (congrFun hcounts.nextRemote dir).symm)
  known _ _ h := by cases h
  injective _ _ _ h := by cases h
  empty _ _ h := by cases h

/-- Whatever a connection has to read when it is drained fits into the queues of its
cells, and it is not on a unidirectional stream that the engine has yet to accept. -/
def Roomy (s : State) (a : Label) : Prop :=
  ∀ w, work s a = some w → Fits s.engine.cells w.streams w.inner.streams

theorem work_drains {w : Work} {e : Engine} (h : Rested s.engine)
    (hcells : CellsOk s.engine) (hcond : Roomy s a) (hw : work s a = some w)
    (hworked : Worked s.engine w e) : Drains (fun _ => False) w.slotIdx e := by
  intro slot hslot
  obtain ⟨_, hslot', hstreams, hinner⟩ := hworked.occupied
  cases hslot'.symm.trans hslot
  have hfits := hcond w hw
  rw [← hstreams, ← hinner] at hfits
  rw [hworked.cells, hworked.nextCell]
  obtain ⟨old, hold, hsame, hcases⟩ | ⟨_, _, _, hnone, haccept⟩ := work_cases hw
  · have hreceives : Receives old.inner.streams slot.inner.streams := by
      rw [hinner]
      rcases hcases with ⟨d, heq⟩ | ⟨now, input, heq⟩ | heq
      · exact heq ▸ (receives_rule d.packets _).handleDatagram (List.Subset.refl _)
          Quiet.refl.receives
      · exact heq ▸ (receives_rule [] _).handleTimeout now input Quiet.refl.receives
      · exact heq ▸ Quiet.refl.receives
    exact (h _ old hold).draining (hstreams.trans hsame) hreceives
      (fun id cell => hcells.owned _ old id cell hold) hfits
  · have hnew : Rest ⟨0, .new s.engine.serverConfig, none, false, fun _ => none, 0⟩ := rest_new _
    have hreceives := (receives_rule _ _).accept haccept Quiet.refl.receives
    rw [← hinner] at hreceives
    exact hnew.draining (hstreams.trans hnone) hreceives (fun _ _ h => by cases h) hfits

theorem Rested.step {s' : State} (h : Rested s.engine) (hcells : CellsOk s.engine)
    (hcond : Roomy s a) (hstep : s.step a = some s') : Rested s'.engine := by
  rcases hw : work s a with _ | w
  · obtain hsame | ⟨k, hmoves⟩ := step_of_noWork hw hstep
    · exact EverySlot.of_connections h hsame
    · exact h.of_moves hmoves
  · obtain ⟨replies, e, hworked, heq⟩ | ⟨input, _, cmdQueue, _, hslot, rfl, heq⟩ :=
      step_of_work hw hstep
    · exact heq ▸ h.drained replies hworked.others (work_drains h hcells hcond hw hworked)
    · have hsame : Rested { s.engine with cmdQueue } := EverySlot.of_connections h rfl
      rw [heq]
      exact hsame.processCommand ⟨hcells.owned, hcells.woken⟩ input hslot (hcond _ hw)

structure Inv (s : State) : Prop where
  rested : Rested s.engine
  cells : CellsOk s.engine

theorem not_readable_of_roomy {s : State} (hs : system.ReachableVia Roomy s) :
    ∀ k slot id cell, s.engine.slot k = some slot → slot.streams id = some cell →
      ¬ Readable slot.inner.streams id := by
  have hinv : Inv s := by
    refine System.ReachableVia.invariant ?_ ?_ hs
    · rintro s ⟨config, networkTiles, rfl⟩
      refine ⟨fun k slot hslot => ?_, cellsOk_initial config networkTiles⟩
      cases hslot
    · intro s a s' h hcond hstep
      exact ⟨h.rested.step h.cells hcond hstep, (grows_step hstep).ok h.cells⟩
  exact fun k slot id cell hslot hcell => (hinv.rested k slot hslot).empty id cell hcell

/-! A client that sends on one stream. -/

def idle (s : State) : Bool :=
  decide (s.phase = .idle) && s.engine.rxQueues.all (fun q => q.items.isEmpty) &&
    s.engine.cmdQueue.items.isEmpty && (s.engine.dueSlots s.now).isEmpty &&
    s.engine.connections.keys.all fun k =>
      (s.engine.slot k).all fun slot => slot.inner.poll.1.isNone

def noWork (s : State) (a : Label) : Bool :=
  (work s a).isNone

theorem roomy_of_noWork (s : State) (a : Label) (h : noWork s a = true) : Roomy s a := by
  intro w hw
  rw [noWork, hw] at h
  cases h

theorem reachable_work {s₁ s₂ : State} {w : Work} (hs : system.ReachableVia Roomy s)
    (labels : List Label) (a : Label) (hrun : system.runChecked noWork s labels = some s₁)
    (hw : work s₁ a = some w) (hfits : Fits s₁.engine.cells w.streams w.inner.streams)
    (hstep : system.step s₁ a = some s₂) : system.ReachableVia Roomy s₂ := by
  refine .step (.of_runChecked roomy_of_noWork hs hrun) (fun w' hw' => ?_) hstep
  cases hw.symm.trans hw'
  exact hfits

theorem fits_of_recv {s : StreamsState} (hother : ∀ j, j ≠ id → s.recv j = none)
    (hid : pieces s id < recvDataCap - used cells streams id) (hbi : id.dir = .bi) :
    Fits cells streams s := by
  intro j hj
  rcases eq_or_ne j id with rfl | hne
  · refine ⟨hid, fun huni => ?_⟩
    rw [hbi] at huni
    cases huni
  · refine absurd hj (not_readable_of_none ?_)
    simp [half, StreamsState.getRecv, hother j hne]

def received : Label :=
  receiveFrames [.stream ⟨firstStream, 0, true, [1]⟩]

/-- Data and FIN of a stream reach the cell, and nothing is left behind. -/
theorem received_not_readable : ∃ s slot, system.ReachableVia Roomy s ∧
    s.engine.slot 0 = some slot ∧ slot.streams firstStream = some 0 ∧
    (s.engine.cells 0).recvData.items = [[1]] ∧ ¬ Readable slot.inner.streams firstStream := by
  have hnone : ∀ (cells : CellId → StreamCell) streams {s : StreamsState},
      s.recv = (fun _ => none) → Fits cells streams s := by
    intro cells streams s hs j hj
    refine absurd hj (not_readable_of_none ?_)
    simp [half, StreamsState.getRecv, hs]
  have hreach₁ := reachable_work (.initial ⟨config, 1, rfl⟩) connect
    (.receive client replies) rfl rfl (hnone _ _ rfl) rfl
  have hreach₂ :=
    reachable_work hreach₁ openFirst (.command commandInput) rfl rfl (hnone _ _ rfl) rfl
  have hreach₃ := reachable_work hreach₂ parkAndReceive received rfl rfl
    (fits_of_recv (fun _ hne => written_of_ne [_, _, _] hne) (by decide : 1 < recvDataCap - 0) rfl)
      rfl
  exact ⟨_, _, hreach₃, rfl, rfl, rfl, not_readable_of_roomy hreach₃ 0 _ firstStream 0 rfl rfl⟩

def wideConfig : TransportConfig :=
  ⟨1, 0, 100, 100, 100, false⟩

def endRun : List Label :=
  [.receive .nothing replies, .receive .nothing replies, .command commandInput, transmit [],
    transmit [], transmit [], noTimeout, transmit []]

def uniStream : StreamId :=
  ⟨.client, .uni, 0⟩

def uniData : List Label :=
  connect ++ [.receive client replies, .arrive 0 [0],
    receiveFrames [.stream ⟨uniStream, 0, false, [1]⟩]] ++ endRun

/-- One packet brings one chunk more than the queue takes, and the application reads
what is there. -/
def oneTooMany : List Label :=
  connect ++ [.receive client replies] ++ openFirst ++ [.command commandInput] ++ parkAndReceive ++
    [receiveFrames ((List.range 17).map fun i => .stream ⟨firstStream, i, false, [0]⟩)] ++ endRun ++
    List.replicate 16 (.read 0 1 7)

/-- The engine is idle, the queue of the stream is empty, and the stream has data. -/
theorem idle_readable :
    (∃ s slot, system.Reachable s ∧ idle s = true ∧ s.engine.slot 0 = some slot ∧
      slot.streams uniStream = some 0 ∧ (s.engine.cells 0).recvData.items = [] ∧
      Readable slot.inner.streams uniStream) ∧
    ∃ s slot, system.Reachable s ∧ idle s = true ∧ s.engine.slot 0 = some slot ∧
      slot.streams firstStream = some 0 ∧ (s.engine.cells 0).recvData.items = [] ∧
      Readable slot.inner.streams firstStream := by
  have hinitial : system.Reachable (.initial wideConfig 1) := .initial ⟨_, _, rfl⟩
  constructor
  · refine hinitial.exists₂_of_run uniData ?_
    exact ⟨_, _, rfl, rfl, rfl, rfl, rfl, _, _, _, rfl, rfl⟩
  · refine hinitial.exists₂_of_run oneTooMany ?_
    exact ⟨_, _, rfl, rfl, rfl, rfl, rfl, _, _, _, rfl, rfl⟩

end Quac.Stranding
