import Quac.EngineSettles
import Quac.HandleIsolation

/-!
The deadlines that the engine caches against the timers of its connections.
-/

namespace Quac.TimerSync

open Bridge EngineSettles EngineSteps
open HandleIsolation (config replies newClient)
open Identifiers Lib.Slabs Lib.Transition
open ProtoConnection hiding State
open Tile TileEngine Timers EverySlot Connection

/-- The loop of `poll_transmit` gets to build a packet, and the packets after it do
not run into the limit on the use of the keys. -/
def Sends : List Connection.TransmitStep → Prop
  | .packet _ _ _ _ :: steps => .confidentialityKill ∉ steps
  | .confidentialityClose _ :: steps => Sends steps
  | .pacing _ :: _ | .confidentialityKill :: _ | [] => False

/-- `poll_transmit` is not held up: it builds a packet, or there is none to build. -/
def Unpaced (_ : State) : Label → Prop
  | .transmit input => input.steps = [] ∨ Sends input.steps
  | _ => True

variable {steps : List Connection.TransmitStep}

theorem transmitLoop_of_sent (now : Instant) (closing : Bool) (c : Connection)
    (hkill : .confidentialityKill ∉ steps) :
    (transmitLoop now closing c true steps).1 = true := by
  induction steps generalizing c with
  | nil => rfl
  | cons step _ ih =>
    rw [List.mem_cons, not_or] at hkill
    cases step with
    | packet =>
      simp only [transmitLoop]
      split_ifs
      · rfl
      · exact ih _ hkill.2
      · exact ih _ hkill.2
    | pacing => rfl
    | confidentialityClose => exact ih _ hkill.2
    | confidentialityKill => exact absurd rfl hkill.1

theorem transmitLoop_of_sends (now : Instant) (closing : Bool) (c : Connection) (h : Sends steps) :
    (transmitLoop now closing c false steps).1 = true := by
  induction steps generalizing c with
  | nil => exact h.elim
  | cons step _ ih =>
    cases step with
    | packet =>
      simp only [transmitLoop]
      split_ifs
      · rfl
      all_goals exact transmitLoop_of_sent _ _ _ h
    | confidentialityClose => exact ih _ h
    | pacing | confidentialityKill => exact h.elim

theorem pollTransmit_none {c c' : Connection} {input : Connection.TransmitInput}
    (hinput : input.steps = [] ∨ Sends input.steps) (h : c.pollTransmit input = (none, c')) :
    c' = c := by
  unfold pollTransmit at h
  split_ifs at h
  · cases h
  · cases h
    rfl
  · rcases hinput with hsteps | hsends
    · simp only [hsteps, transmitLoop, Bool.false_eq_true, if_false] at h
      split at h
      · split_ifs at h
        · cases h
        · cases h
          rfl
      · cases h
        rfl
    · have hsent := transmitLoop_of_sends input.now c.state.isClosed c hsends
      simp only [hsent, if_true] at h
      cases h

def Synced (e : Engine) : Prop :=
  ∀ k slot, e.slot k = some slot → slot.nextTimeout = slot.inner.pollTimeout

/-- The deadline that `run_once` returns is not after any timer that is armed. -/
def NotSleptThrough (e : Engine) : Prop :=
  ∀ k slot timer time, e.slot k = some slot → slot.inner.timers.get timer = some time →
    ∃ deadline, e.nextDeadline = some deadline ∧ deadline ≤ time

theorem nextDeadline_le {e : Engine} {k : Nat} {slot : ConnectionSlot} {time : Instant}
    (hslot : e.slot k = some slot) (htime : slot.nextTimeout = some time) :
    ∃ deadline, e.nextDeadline = some deadline ∧ deadline ≤ time := by
  have hmem : time ∈ e.connections.keys.filterMap fun k =>
      (e.slot k).bind fun slot => slot.nextTimeout := by
    refine List.mem_filterMap.mpr ⟨k, Slab.mem_keys.mpr ?_, ?_⟩
    · rw [show e.connections.get k = some slot from hslot]
      rfl
    · rw [hslot]
      exact htime
  obtain ⟨deadline, hmin⟩ := Option.ne_none_iff_exists'.mp fun hnone =>
    List.ne_nil_of_mem hmem (List.min?_eq_none_iff.mp hnone)
  exact ⟨deadline, hmin, (List.min?_eq_some_iff.mp hmin).2 time hmem⟩

theorem Synced.notSleptThrough {e : Engine} (h : Synced e) : NotSleptThrough e := by
  intro k slot timer time hslot htime
  obtain ⟨_, hnext, hle⟩ := TimerTable.nextTimeout_le htime
  obtain ⟨deadline, hdeadline, hle'⟩ := nextDeadline_le hslot ((h k slot hslot).trans hnext)
  exact ⟨deadline, hdeadline, le_trans hle' hle⟩

namespace Synced

variable {e e' : Engine} {k : Nat}

theorem drainConnectionEvents (h : Synced e) (hslots : ∀ j, j ≠ k → e'.slot j = e.slot j)
    (replies : Replies) : Synced (Engine.drainConnectionEvents replies e' k) := by
  refine of_slots (k := k) h ?_ fun slot hslot =>
    (drainConnectionEvents_settled replies e' k slot hslot).nextTimeout
  intro j hj
  exact ((Local.drainConnectionEvents replies e' k).slots j hj).trans (hslots j hj)

theorem dispatch (h : Synced e) (replies : Replies) (event : DatagramEvent) :
    Synced (e.dispatch replies event) := by
  obtain hanswered | ⟨ch, d, k, -, -, heq⟩ | ⟨_, ch, conn, endpoint, -, -, heq⟩ :=
    dispatch_work e replies event
  · exact of_connections h hanswered.connections
  · rw [heq]
    exact h.drainConnectionEvents (Local.act e k fun c => c.handleDatagram d).slots replies
  · rw [heq]
    refine h.drainConnectionEvents (fun j hj => ?_) replies
    exact (slot_addConnection { e with endpoint } ch conn j).trans (if_neg hj)

theorem processCommand (h : Synced e) (input : Engine.CommandInput) (cmd : TileAppCommand) :
    Synced (e.processCommand input cmd) := by
  have hwith : ∀ k act, Synced (e.withSlot input k act) :=
    fun k act => h.drainConnectionEvents (Local.act e k act).slots _
  cases cmd with
  | openStream conn dir =>
    simp only [Engine.processCommand]
    split
    · exact h
    · rename_i slot hslot
      rcases StreamAccess.openStream slot.inner.streams slot.inner.state.isClosed dir
        with ⟨_ | id, streams⟩
      · exact setSlot h hslot (h conn slot hslot)
      · refine h.drainConnectionEvents (Local.of_moves (p := .any) ?_).slots _
        exact (moves_opened hslot trivial trivial id true).trans moves_markPendingSend
  | write conn | finish conn | resetStream conn | closeConn conn =>
    rw [Engine.processCommand]
    exact hwith conn _

theorem beginTransmit (h : Synced e) (k : Nat) : Synced (e.beginTransmit k) := by
  unfold Engine.beginTransmit
  split
  · exact h
  · rename_i slot hslot
    exact setSlot h hslot (h k slot hslot)

theorem transmitOnce (h : Synced e) {input : Connection.TransmitInput}
    (hinput : input.steps = [] ∨ Sends input.steps) (firstPoll : Bool) (k : Nat) :
    Synced (e.transmitOnce input firstPoll k).2 := by
  unfold Engine.transmitOnce
  split
  · exact h
  · rename_i slot hslot
    split
    · rename_i inner hpoll
      rw [pollTransmit_none hinput hpoll]
      split_ifs
      · exact setSlot h hslot (h k slot hslot)
      · have hset : Synced (e.setSlot k { slot with hasPendingSend := true }) :=
          setSlot h hslot (h k slot hslot)
        exact of_connections hset rfl
    · rename_i payload inner hpoll
      have hset : Synced (e.setSlot k { slot with inner, nextTimeout := inner.pollTimeout }) :=
        setSlot h hslot rfl
      exact of_connections hset rfl

theorem step {s s' : State} {a : Label} (h : Synced s.engine) (hcond : Unpaced s a)
    (hstep : s.step a = some s') : Synced s'.engine := by
  have hof : ∀ {e e' : Engine}, SameConnections e e' → Synced e → Synced e' :=
    fun hsame he => of_connections he hsame.connections
  refine State.step_keeps hof ?_ ?_ h.beginTransmit ?_ ?_ h hstep
  · rintro event replies e - hsame
    exact (hof hsame h).dispatch replies event
  · rintro input cmd rest e - - hsame
    exact (hof hsame h).processCommand input cmd
  · rintro input firstPoll k rfl
    exact transmitOnce h (by exact hcond) firstPoll k
  · rintro input replies k -
    exact h.drainConnectionEvents
      (Local.act s.engine k fun c => c.handleTimeout s.now input).slots replies

end Synced

theorem synced_of_unpaced {s : State} (hs : system.ReachableVia Unpaced s) :
    Synced s.engine ∧ NotSleptThrough s.engine := by
  have hsynced : Synced s.engine := by
    induction hs with
    | initial h =>
      obtain ⟨_, _, rfl⟩ := h
      intro k slot hslot
      cases hslot
    | step _ hcond hstep ih => exact ih.step hcond hstep
  exact ⟨hsynced, hsynced.notSleptThrough⟩

/-! A client connects, and `drive_transmit` turns to it. -/

def transmit (steps : List Connection.TransmitStep) : Label :=
  .transmit ⟨0, false, steps, none, ⟨[], 0⟩⟩

def connectAndTransmit : List Label :=
  [.arrive 0 [0], .runOnce 0, .receive newClient replies, .receive .nothing replies,
    .receive .nothing replies, .command ⟨0, 0, replies⟩, transmit []]

def noTimeout : Label :=
  .timer ⟨(⟨[], [], [], [], false, false⟩, .none), 0⟩ replies

/-- A packet is sent, and the loss detection timer set for it; then `run_once` ends,
with these further calls of `poll_transmit` in its two calls of `drive_transmit`. -/
def sendPacket (next : List Connection.TransmitStep) : List Label :=
  [transmit [.packet none false false ⟨[(.lossDetection, some 300)], by simp⟩], transmit next,
    transmit [], noTimeout, transmit [], transmit next, transmit []]

def unpacedNow (_ : State) : Label → Bool
  | .transmit input =>
    match input.steps with
    | [] | [.packet _ _ _ _] => true
    | _ => false
  | _ => true

theorem unpaced_of_unpacedNow (s : State) (a : Label) (h : unpacedNow s a = true) :
    Unpaced s a := by
  unfold Unpaced
  split
  · simp only [unpacedNow] at h
    split at h
    · exact .inl (by assumption)
    · rename_i heq
      rw [heq]
      exact .inr List.not_mem_nil
    · cases h
  · trivial

theorem sendPacket_synced : ∃ s, system.ReachableVia Unpaced s ∧ s.phase = .idle ∧
    s.engine.nextDeadline = some 300 ∧ Synced s.engine ∧ NotSleptThrough s.engine := by
  refine System.ReachableVia.exists_of_runChecked unpaced_of_unpacedNow (.initial ⟨config, 1, rfl⟩)
    (connectAndTransmit ++ sendPacket []) ?_
  exact ⟨_, rfl, fun hreach => ⟨rfl, rfl, synced_of_unpaced hreach⟩⟩

/-- Another packet has to wait until 5, and `run_once` returns 300. -/
theorem sendPaced_not_synced : ∃ s, system.Reachable s ∧ s.phase = .idle ∧
    ¬ Synced s.engine ∧ ¬ NotSleptThrough s.engine := by
  have hinitial : system.Reachable (.initial config 1) := .initial ⟨config, 1, rfl⟩
  refine hinitial.exists_of_run (connectAndTransmit ++ sendPacket [.pacing 5])
    ⟨_, rfl, rfl, fun h => ?_, fun h => ?_⟩
  · have hsync : some 300 = some 5 := h 0 _ rfl
    cases hsync
  · obtain ⟨deadline, heq, hle⟩ := h 0 _ .pacing 5 rfl rfl
    have hdeadline : some 300 = some deadline := heq
    cases hdeadline
    simp at hle

end Quac.TimerSync
