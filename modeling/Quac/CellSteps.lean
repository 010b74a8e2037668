import Quac.EngineSettles
import Quac.TileWork

/-!
The cells that the engine shares with the application: they are allocated in order,
and a FIN that was signalled stays signalled and leaves nobody asleep.
-/

namespace Quac.CellSteps

open Bridge EngineSteps Function Identifiers Lib.Slabs
open PollRead (pollRead)
open ProtoConnection hiding State
open Tile TileEngine Engine

def Woken (cell : StreamCell) : Prop :=
  cell.recvFin = true → cell.recvWaker = none

structure CellsOk (e : Engine) : Prop where
  owned : ∀ k slot id cell, e.slot k = some slot → slot.streams id = some cell → cell < e.nextCell
  woken : ∀ cell, Woken (e.cells cell)

structure Grows (e e' : Engine) : Prop where
  ok : CellsOk e → CellsOk e'
  nextCell : e.nextCell ≤ e'.nextCell
  fin : ∀ cell, cell < e.nextCell → (e.cells cell).recvFin = true → (e'.cells cell).recvFin = true

namespace Grows

variable {e e' e'' : Engine} {k : Nat}

theorem refl : Grows e e :=
  ⟨id, le_rfl, fun _ _ h => h⟩

theorem trans (h : Grows e e') (h' : Grows e' e'') : Grows e e'' :=
  ⟨fun hok => h'.ok (h.ok hok), le_trans h.nextCell h'.nextCell, fun cell hlt hfin =>
    h'.fin cell (lt_of_lt_of_le hlt h.nextCell) (h.fin cell hlt hfin)⟩

theorem of_slots (hcells : e'.cells = e.cells) (hnext : e'.nextCell = e.nextCell)
    (hslots : ∀ j slot' id cell, e'.slot j = some slot' → slot'.streams id = some cell →
      ∃ slot, e.slot j = some slot ∧ slot.streams id = some cell) : Grows e e' where
  ok h := by
    refine ⟨fun j slot' id cell hslot' hcell => ?_, fun cell => hcells ▸ h.woken cell⟩
    obtain ⟨slot, hslot, hstream⟩ := hslots j slot' id cell hslot' hcell
    exact hnext ▸ h.owned j slot id cell hslot hstream
  nextCell := le_of_eq hnext.symm
  fin _ _ hfin := hcells ▸ hfin

theorem of_eq (hslots : e'.connections = e.connections) (hcells : e'.cells = e.cells)
    (hnext : e'.nextCell = e.nextCell) : Grows e e' := by
  refine of_slots hcells hnext fun j slot' id cell hslot' hcell => ⟨slot', ?_, hcell⟩
  rw [slot, ← hslots]
  exact hslot'

theorem setCell (cell : CellId) {value : StreamCell}
    (hfin : (e.cells cell).recvFin = true → value.recvFin = true)
    (hwoken : Woken (e.cells cell) → Woken value) : Grows e (e.setCell cell value) where
  ok h := by
    refine ⟨h.owned, fun j => ?_⟩
    simp only [Engine.setCell, update_apply]
    split_ifs with heq
    · exact hwoken (h.woken cell)
    · exact h.woken j
  nextCell := le_rfl
  fin j _ hj := by
    simp only [Engine.setCell, update_apply]
    split_ifs with heq
    · exact hfin (heq ▸ hj)
    · exact hj

theorem opened {slot : ConnectionSlot} (hslot : e.slot k = some slot) (id : StreamId)
    (event : ConnEvent) :
    Grows e (pushEvent (setSlot
      { e.setCell e.nextCell .new with nextCell := e.nextCell + 1 } k
      { slot with streams := update slot.streams id (some e.nextCell) })
      slot.connState event) := by
  refine ⟨fun h => ⟨?_, ?_⟩, Nat.le_succ _, ?_⟩
  · intro j s id' cell hs hcell
    have hs' := (slot_setSlot hslot
      { slot with streams := update slot.streams id (some e.nextCell) } j).symm.trans hs
    split_ifs at hs' with heq
    · cases hs'
      simp only [update_apply] at hcell
      split_ifs at hcell
      · cases hcell
        exact Nat.lt_succ_self _
      · exact Nat.lt_succ_of_lt (h.owned k slot id' cell hslot hcell)
    · exact Nat.lt_succ_of_lt (h.owned j s id' cell hs' hcell)
  · intro cell
    change Woken (update e.cells e.nextCell .new cell)
    rw [update_apply]
    split_ifs
    · exact fun h => by cases h
    · exact h.woken cell
  · intro cell hlt hfin
    change (update e.cells e.nextCell .new cell).recvFin = true
    rw [update_of_ne (Nat.ne_of_lt hlt)]
    exact hfin

theorem deliverFrom_fin (pushed : Bool) (cell : StreamCell) (data : List Bytes) (fin : Bool) :
    (cell.recvFin = true → (deliverFrom pushed cell data fin).recvFin = true) ∧
      (Woken cell → Woken (deliverFrom pushed cell data fin)) := by
  induction data generalizing pushed cell with
  | nil =>
    refine ⟨fun h => by simp [deliverFrom, h], fun h => ?_⟩
    intro hfin
    simp only [deliverFrom, Bool.or_eq_true] at hfin ⊢
    rcases hfin with hfin | hfin
    · rw [h hfin, ite_self]
    · rw [if_pos (.inr hfin)]
  | cons _ _ ih =>
    unfold deliverFrom
    split
    · rename_i recvData _
      exact ih true { cell with recvData }
    · exact ih pushed cell

theorem of_moves {p : Permit} (h : Moves p k e e') : Grows e e' := by
  induction h with
  | refl => exact refl
  | tail _ hmove ih =>
    refine ih.trans ?_
    cases hmove with
    | slot hslot =>
      refine of_slots rfl rfl fun j s id cell hs hcell => ?_
      rw [slot_setSlot hslot] at hs
      split_ifs at hs with heq
      · subst heq
        cases hs
        exact ⟨_, hslot, hcell⟩
      · exact ⟨s, hs, hcell⟩
    | opened _ hslot id event => exact opened hslot id event
    | woken => exact setCell _ id id
    | delivered _ _ data fin =>
      obtain ⟨hfin, hwoken⟩ := deliverFrom_fin false _ data fin
      exact setCell _ hfin hwoken
    | removed =>
      refine of_slots rfl rfl fun j slot' id cell hslot' hcell => ⟨slot', ?_, hcell⟩
      have hs := (Slab.get_remove _ k j).symm.trans hslot'
      split_ifs at hs
      exact hs
    | queued | endpoint | sent => exact of_eq rfl rfl rfl

theorem dispatch (replies : Replies) (event : DatagramEvent) :
    Grows e (e.dispatch replies event) := by
  obtain ⟨k, hmoves⟩ | ⟨_, ch, conn, endpoint, -, -, heq⟩ := dispatch_cases e replies event
  · exact of_moves hmoves
  · rw [heq]
    refine trans ?_ (of_moves (work_drain replies _ _))
    refine of_slots rfl rfl fun j slot' id cell hslot' hcell => ⟨slot', ?_, hcell⟩
    have hs := (slot_addConnection { e with endpoint } ch conn j).symm.trans hslot'
    split_ifs at hs
    · cases hs
      cases hcell
    · exact hs

theorem read (e : Engine) (cell : CellId) (leftover : Bytes) (remaining : Nat) (task : Task) :
    Grows e (e.setCell cell (pollRead (e.cells cell) leftover remaining task).2.2) := by
  unfold pollRead
  split_ifs with hleft hfin
  · exact setCell cell id id
  · split <;> exact setCell cell id id
  · split
    · exact setCell cell id id
    · exact setCell cell id fun _ h => absurd h hfin

end Grows

theorem grows_step {s s' : State} {a : Label} (h : s.step a = some s') :
    Grows s.engine s'.engine := by
  cases State.step_turn h with
  | packet event replies =>
    refine Grows.trans ?_ (.dispatch replies event)
    exact .of_eq rfl rfl rfl
  | command input =>
    refine Grows.trans ?_ (.of_moves (work_processCommand _ input _))
    exact .of_eq rfl rfl rfl
  | transmit input =>
    obtain ⟨k, hmoves⟩ := TileWork.work_transmitStep
      (p := .any) (fun _ _ => trivial) s _ _ _ _ input
    exact .of_moves hmoves
  | timer input replies => exact .of_moves (work_fireTimer _ _ input replies _)
  | writerPops =>
    unfold State.writerPops
    split
    · exact .refl
    · exact .of_eq rfl rfl rfl
  | outside _ houtside =>
    obtain ⟨cell, value, huse, hcells⟩ := houtside.cells
    refine Grows.trans ?_
      (.of_eq (e := s.engine.setCell cell value) houtside.same.connections hcells
      houtside.nextCell)
    cases huse with
    | read leftover remaining task => exact .read s.engine cell leftover remaining task
    | _ => exact .setCell cell id id
  | noCommand | lastTransmit => exact .of_eq rfl rfl rfl
  | noPacket | stop | runOnce => exact .refl

theorem cellsOk_initial (config : TransportConfig) (networkTiles : Nat) :
    CellsOk (State.initial config networkTiles).engine := by
  refine ⟨fun k slot id cell hslot => ?_, fun cell h => by cases h⟩
  cases hslot

end Quac.CellSteps
