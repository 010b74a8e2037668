import Quac.WriteIntegrity

/-!
What happens to the datagrams of the connections when `tx_queue` is full.
-/

namespace Quac.TransmitQueue

open Bridge EngineSteps HandleIsolation Identifiers Lib.BoundedQueue
open Lib.Transition
open ProtoConnection hiding State
open ProtoEndpoint Tile TileEngine WriteIntegrity Engine ArrayQueue List

/-- `Bytes::copy_from_slice(&slot.send_buf[..transmit.size])`. -/
def payload (transmit : Transmit) : Bytes :=
  transmit.scratch.take transmit.size

/-- A queued datagram, with the connection that it is from; the endpoint's own have
none. -/
structure Entry where
  source : Option ConnId
  payload : Bytes

def Entry.sent (entry : Entry) : Option (ConnId × Bytes) :=
  entry.source.map fun conn => (conn, entry.payload)

/-- A slot that gave a datagram and was not polled anew since, and the `run_once` in
which it did. -/
structure Owed where
  slot : Nat
  run : Nat

variable {s : State} {input : Connection.TransmitInput} {runs slotIdx : Nat} {o : Owed}
  {todo : List Nat} {didWork : Bool}

structure History where
  /-- What `drive_transmit` obtained from `poll_transmit`. -/
  obtained : List (ConnId × Transmit)
  /-- What the writer took from the queue. -/
  taken : List Entry
  /-- What is in the queue. -/
  queued : List Entry
  /-- The number of calls of `run_once`. -/
  runs : Nat
  owed : List Owed

def History.empty : History :=
  ⟨[], [], [], 0, []⟩

/-- What `poll_transmit` gives in the step, and for which connection. -/
def given (s : State) : Label → Option (ConnId × Transmit)
  | .transmit input =>
    match s.phase with
    | .transmit (some (slotIdx, _)) _ _ _ =>
      (s.engine.slot slotIdx).bind fun slot =>
        (slot.inner.pollTransmit { input with now := s.now }).1.map (slot.connState, ·)
    | _ => none
  | _ => none

/-- The first poll of a slot settles what was owed; a slot that was removed is
passed over. -/
def nextOwed (s : State) (a : Label) (h : History) : List Owed :=
  match a, s.phase with
  | .transmit _, .transmit (some (slotIdx, firstPoll)) _ _ _ =>
    let rest := if firstPoll then h.owed.filter fun o => o.slot ≠ slotIdx else h.owed
    if (given s a).isSome then rest ++ [⟨slotIdx, h.runs⟩] else rest
  | .transmit _, .transmit none (slotIdx :: _) _ _ =>
    if (s.engine.slot slotIdx).isSome then h.owed
    else h.owed.filter fun o => o.slot ≠ slotIdx
  | _, _ => h.owed

def added (s s' : State) (a : Label) : List Entry :=
  (s'.engine.txQueue.items.drop s.engine.txQueue.items.length).map
    (Entry.mk ((given s a).map Prod.fst))

def observe (s s' : State) (a : Label) (h : History) : History :=
  match a with
  | .writerPops =>
    { h with taken := h.taken ++ h.queued.take 1, queued := h.queued.drop 1 }
  | .runOnce _ => { h with runs := h.runs + 1 }
  | a =>
    { h with
      obtained := h.obtained ++ (given s a).toList
      queued := h.queued ++ added s s' a
      owed := nextOwed s a h }

def history : System (State × History) Label where
  initial s := system.initial s.1 ∧ s.2 = .empty
  step s a := (s.1.step a).map fun s' => (s', observe s.1 s' a s.2)

/-- `drive_transmit` is not at work. -/
def Phase.quiet : Phase → Bool
  | .transmit _ _ _ _ => false
  | _ => true

structure Kept (s : State × History) : Prop where
  queue : s.1.engine.txQueue.items = s.2.queued.map Entry.payload
  /-- Each datagram got its place in the queue, in order. -/
  placed : (s.2.obtained.map fun given => (given.1, payload given.2)) =
    (s.2.taken ++ s.2.queued).filterMap Entry.sent
  marked : Phase.quiet s.1.phase = true → ∀ o ∈ s.2.owed, o.slot ∈ s.1.engine.pendingSend
  /-- A later `run_once` leaves nothing owed by an earlier one. -/
  polled : s.1.phase = .idle → ∀ o ∈ s.2.owed, o.run = s.2.runs

def polls (s : State) : Label → Bool
  | .transmit _ =>
    match s.phase with
    | .transmit (some _) _ _ _ => true
    | _ => false
  | _ => false

/-- A connection is polled only when the queue has a place for its datagram. -/
def Room (s : State × History) (a : Label) : Prop :=
  polls s.1 a = true → s.1.engine.txQueue.items.length < s.1.engine.txQueue.capacity

/-! Work on connections only adds to `tx_queue` and to `pending_send`. -/

structure Extends (e e' : Engine) : Prop where
  queue : e.txQueue.Fed e'.txQueue
  pending : e.pendingSend ⊆ e'.pendingSend

namespace Extends

variable {e e' e'' : Engine} {k : Nat}

theorem of_eq (hqueue : e'.txQueue = e.txQueue) (hpending : e'.pendingSend = e.pendingSend) :
    Extends e e' :=
  ⟨by rw [hqueue]; exact .refl, by rw [hpending]; exact List.Subset.refl _⟩

theorem refl : Extends e e :=
  of_eq rfl rfl

theorem trans (h : Extends e e') (h' : Extends e' e'') : Extends e e'' :=
  ⟨h.queue.trans h'.queue, List.Subset.trans h.pending h'.pending⟩

theorem pushTx (payload : Bytes) : Extends e (e.pushTx payload) :=
  ⟨.push payload, List.Subset.refl _⟩

theorem of_moves {p : Permit} (h : Moves p k e e') : Extends e e' := by
  induction h with
  | refl => exact refl
  | tail _ hmove ih =>
    refine ih.trans ?_
    cases hmove with
    | queued => exact ⟨.refl, subset_append_left _ _⟩
    | sent payload => exact pushTx payload
    | _ => exact of_eq rfl rfl

theorem dispatch (replies : Replies) (event : DatagramEvent) :
    Extends e (e.dispatch replies event) := by
  obtain ⟨k, hmoves⟩ | ⟨_, _, _, _, -, -, heq⟩ := dispatch_cases e replies event
  · exact of_moves hmoves
  · rw [heq]
    refine trans ?_ (of_moves (work_drain replies _ _))
    exact ⟨.refl, subset_append_left _ _⟩

end Extends

theorem writerPops_same (s : State) : s.writerPops.engine.pendingSend = s.engine.pendingSend ∧
    s.writerPops.phase = s.phase := by
  unfold State.writerPops
  split <;> exact ⟨rfl, rfl⟩

theorem step_fed {s' : State} {a : Label} (h : s.step a = some s') (hpops : a ≠ .writerPops) :
    s.engine.txQueue.Fed s'.engine.txQueue := by
  cases State.step_turn h with
  | @packet queue _ _ rest _ event replies =>
    exact (Extends.dispatch (e := { s.engine with rxQueues := s.engine.rxQueues.set queue rest })
      replies event).queue
  | @command _ cmd cmdQueue input =>
    exact (Extends.of_moves (work_processCommand { s.engine with cmdQueue } input cmd)).queue
  | transmit input =>
    obtain ⟨k, hmoves⟩ := TileWork.work_transmitStep
      (p := .any) (fun _ _ => trivial) s _ _ _ _ input
    exact (Extends.of_moves hmoves).queue
  | timer input replies => exact (Extends.of_moves (work_fireTimer _ _ input replies _)).queue
  | writerPops => exact absurd rfl hpops
  | outside _ houtside =>
    rw [houtside.txQueue]
    exact .refl
  | noPacket | noCommand | lastTransmit | stop | runOnce => exact .refl

/-- Where a slot that owes a poll waits for it. -/
def Covered (s : State) (runs : Nat) (o : Owed) : Prop :=
  match s.phase with
  | .idle | .timers _ _ => o.slot ∈ s.engine.pendingSend ∧ o.run = runs
  | .receive _ _ | .commands _ => o.slot ∈ s.engine.pendingSend
  | .transmit current todo _ _ =>
    (o.slot ∈ s.engine.pendingSend ∧ o.run = runs) ∨ o.slot ∈ todo ∨
      ∃ firstPoll, current = some (o.slot, firstPoll) ∧ (firstPoll = true ∨ o.run = runs)

structure Ledger (s : State) (h : History) : Prop where
  queue : s.engine.txQueue.items = h.queued.map Entry.payload
  placed : (h.obtained.map fun given => (given.1, payload given.2)) =
    (h.taken ++ h.queued).filterMap Entry.sent

/-- No slot is removed while it is polled. -/
def Occupied (s : State) : Prop :=
  ∀ slotIdx firstPoll todo didWork last,
    s.phase = .transmit (some (slotIdx, firstPoll)) todo didWork last →
      (s.engine.slot slotIdx).isSome

structure Inv (s : State × History) : Prop where
  ledger : Ledger s.1 s.2
  occupied : Occupied s.1
  covered : ∀ o ∈ s.2.owed, Covered s.1 s.2.runs o

section Steps

variable {s s' : State} {h : History} {a : Label}

theorem Ledger.of_fed (hledger : Ledger s h) (hqueue : s.engine.txQueue.Fed s'.engine.txQueue)
    (hgiven : ∀ conn transmit, given s a = some (conn, transmit) →
      s'.engine.txQueue.items = s.engine.txQueue.items ++ [payload transmit]) (owed : List Owed) :
    Ledger s' { h with
      obtained := h.obtained ++ (given s a).toList
      queued := h.queued ++ added s s' a
      owed } := by
  obtain ⟨rest, hrest⟩ := hqueue.items
  have hadded : added s s' a = rest.map (Entry.mk ((given s a).map Prod.fst)) := by
    rw [added, ← hrest, drop_left]
  refine ⟨?_, ?_⟩
  · rw [hadded, map_append, ← hledger.queue, map_map, ← hrest]
    congr 1
    exact (map_id rest).symm
  · rw [← append_assoc, filterMap_append, ← hledger.placed, map_append, hadded]
    rcases heq : given s a with _ | ⟨conn, transmit⟩
    · simp [Entry.sent]
    · obtain rfl : rest = [payload transmit] := by
        have hitems := hrest.trans (hgiven conn transmit heq)
        exact append_cancel_left hitems
      rfl

theorem Ledger.writerPops (hledger : Ledger s h) : Ledger s.writerPops
      { h with taken := h.taken ++ h.queued.take 1, queued := h.queued.drop 1 } := by
  refine ⟨?_, ?_⟩
  · have hqueue := hledger.queue
    unfold State.writerPops
    rw [map_drop, ← hqueue]
    split
    · rename_i hpop
      rw [pop_eq_none hpop]
      rfl
    · rename_i payload rest hpop
      rw [(pop_eq_some hpop).2]
      rfl
  · rw [append_assoc, take_append_drop]
    exact hledger.placed

theorem transmit_given {conn : ConnId} {transmit : Transmit}
    (hstep : s.step (.transmit input) = some s')
    (hgiven : given s (.transmit input) = some (conn, transmit))
    (hroom : s.engine.txQueue.items.length < s.engine.txQueue.capacity) :
    s'.engine.txQueue.items = s.engine.txQueue.items ++ [payload transmit] := by
  simp only [given] at hgiven
  split at hgiven
  · rename_i slotIdx firstPoll todo didWork last hphase
    obtain ⟨slot, hslot, hpoll⟩ := Option.bind_eq_some_iff.mp hgiven
    rcases hres : slot.inner.pollTransmit { input with now := s.now } with ⟨_ | p, _⟩
    · simp [hres] at hpoll
    · obtain ⟨-, rfl⟩ : slot.connState = conn ∧ p = transmit := by simpa [hres] using hpoll
      obtain ⟨q, hq, hitems, -⟩ := push_of_room hroom (payload p)
      simp only [State.step, hphase, State.transmitStep, transmitOnce, hslot, hres,
        Option.some.injEq] at hstep
      rw [payload] at hq
      rw [← hstep, ← hitems]
      simp only [pushTx, setSlot, hq, Option.getD_some]
  · cases hgiven

theorem covered_of_pending (hphase : Phase.quiet s.phase = true) (hcovered : Covered s runs o) :
    o.slot ∈ s.engine.pendingSend := by
  unfold Covered at hcovered
  split at hcovered
  · exact hcovered.1
  · exact hcovered.1
  · exact hcovered
  · exact hcovered
  · rename_i heq
    rw [heq] at hphase
    cases hphase

theorem covered_startTransmit (didWork last : Bool) (hpending : o.slot ∈ s.engine.pendingSend) :
    Covered (s.startTransmit didWork last) runs o :=
  .inr (.inl hpending)

variable {last : Bool}

theorem covered_begin (input : Connection.TransmitInput)
    (hphase : s.phase = .transmit none (slotIdx :: todo) didWork last)
    (hcovered : ∀ o ∈ h.owed, Covered s h.runs o) :
    ∀ o ∈ nextOwed s (.transmit input) h,
      Covered (s.transmitStep none (slotIdx :: todo) didWork last input) h.runs o := by
  have hwhere (o : Owed) (ho : o ∈ h.owed) : (o.slot ∈ s.engine.pendingSend ∧ o.run = h.runs) ∨
      o.slot = slotIdx ∨ o.slot ∈ todo := by
    have hat := hcovered o ho
    unfold Covered at hat
    simp only [hphase, mem_cons] at hat
    rcases hat with hpending | htodo | ⟨_, heq, -⟩
    · exact .inl hpending
    · exact .inr htodo
    · cases heq
  intro o ho
  simp only [nextOwed, hphase] at ho
  simp only [State.transmitStep]
  split_ifs at ho ⊢ with hslot
  · have hextends : Extends s.engine (s.engine.beginTransmit slotIdx) :=
      .of_moves (p := .any) (moves_beginTransmit slotIdx)
    rcases hwhere o ho with hpending | rfl | htodo
    · exact .inl ⟨hextends.pending hpending.1, hpending.2⟩
    · exact .inr (.inr ⟨true, rfl, .inl rfl⟩)
    · exact .inr (.inl htodo)
  · obtain ⟨hmem, hne⟩ := mem_filter.mp ho
    rcases hwhere o hmem with hpending | heq | htodo
    · exact .inl hpending
    · simp [heq] at hne
    · exact .inr (.inl htodo)

theorem covered_poll {firstPoll : Bool} (input : Connection.TransmitInput)
    (hphase : s.phase = .transmit (some (slotIdx, firstPoll)) todo didWork last)
    (hoccupied : (s.engine.slot slotIdx).isSome) (hcovered : ∀ o ∈ h.owed, Covered s h.runs o) :
    ∀ o ∈ nextOwed s (.transmit input) h,
      Covered (s.transmitStep (some (slotIdx, firstPoll)) todo didWork last input) h.runs o := by
  obtain ⟨slot, hslot⟩ := Option.isSome_iff_exists.mp hoccupied
  -- What was owed by the slot before its turn is settled by the first poll.
  have hwhere (o : Owed)
      (ho : o ∈ if firstPoll then h.owed.filter fun o => o.slot ≠ slotIdx else h.owed) :
      (o.slot ∈ s.engine.pendingSend ∧ o.run = h.runs) ∨ o.slot ∈ todo ∨
        (firstPoll = false ∧ o.slot = slotIdx ∧ o.run = h.runs) := by
    have hmem : o ∈ h.owed := by
      split_ifs at ho
      · exact mem_of_mem_filter ho
      · exact ho
    have hat := hcovered o hmem
    unfold Covered at hat
    simp only [hphase] at hat
    rcases hat with hpending | htodo | ⟨_, heq, hrun⟩
    · exact .inl hpending
    · exact .inr (.inl htodo)
    · cases heq
      cases firstPoll with
      | true => simp at ho
      | false => exact .inr (.inr ⟨rfl, rfl, hrun.resolve_left Bool.false_ne_true⟩)
  intro o ho
  simp only [nextOwed, hphase, given, hslot, Option.bind_some] at ho
  rcases hres : slot.inner.pollTransmit { input with now := s.now } with ⟨_ | p, _⟩
  · simp only [hres, Option.map_none, Option.isSome_none, Bool.false_eq_true, if_false] at ho
    cases firstPoll with
    | true =>
      simp only [State.transmitStep, transmitOnce, hslot, hres, if_true]
      rcases hwhere o ho with hpending | htodo | ⟨hfirst, -⟩
      · exact .inl hpending
      · exact .inr (.inl htodo)
      · cases hfirst
    | false =>
      simp only [State.transmitStep, transmitOnce, hslot, hres, Bool.false_eq_true, if_false]
      rcases hwhere o ho with hpending | htodo | ⟨-, heq, hrun⟩
      · exact .inl ⟨mem_append_left _ hpending.1, hpending.2⟩
      · exact .inr (.inl htodo)
      · exact .inl ⟨by rw [heq]; exact mem_append_right _ (mem_singleton.mpr rfl), hrun⟩
  · simp only [hres, Option.map_some, Option.isSome_some, if_true] at ho
    simp only [State.transmitStep, transmitOnce, hslot, hres]
    rcases mem_append.mp ho with hold | hnew
    · rcases hwhere o hold with hpending | htodo | ⟨-, rfl, hrun⟩
      · exact .inl hpending
      · exact .inr (.inl htodo)
      · exact .inr (.inr ⟨false, rfl, .inr hrun⟩)
    · rw [mem_singleton.mp hnew]
      exact .inr (.inr ⟨false, rfl, .inr rfl⟩)

theorem covered_end (input : Connection.TransmitInput)
    (hphase : s.phase = .transmit none [] didWork last)
    (hcovered : ∀ o ∈ h.owed, Covered s h.runs o) :
    ∀ o ∈ nextOwed s (.transmit input) h,
      Covered (s.transmitStep none [] didWork last input) h.runs o := by
  intro o ho
  simp only [nextOwed, hphase] at ho
  have hat := hcovered o ho
  unfold Covered at hat
  simp only [hphase, not_mem_nil, false_or] at hat
  have hpending : o.slot ∈ s.engine.pendingSend ∧ o.run = h.runs := by
    rcases hat with hpending | ⟨_, heq, -⟩
    · exact hpending
    · cases heq
  simp only [State.transmitStep]
  split_ifs
  · exact hpending
  · exact hpending

theorem transmitStep_occupied {current : Option (Nat × Bool)} {firstPoll : Bool}
    {todo' : List Nat} {didWork' last' : Bool}
    (hphase : (s.transmitStep current todo didWork last input).phase =
      .transmit (some (slotIdx, firstPoll)) todo' didWork' last') :
    ((s.transmitStep current todo didWork last input).engine.slot slotIdx).isSome := by
  rcases current with _ | ⟨k, first⟩
  · rcases todo with _ | ⟨k, _⟩
    · simp only [State.transmitStep] at hphase
      split_ifs at hphase
    · simp only [State.transmitStep] at hphase ⊢
      split_ifs at hphase ⊢ with hslot
      · obtain ⟨slot, hslot⟩ := Option.isSome_iff_exists.mp hslot
        cases hphase
        simp only [beginTransmit, hslot]
        rw [slot_setSlot hslot, if_pos rfl]
        rfl
      · cases hphase
  · rcases hslot : s.engine.slot k with _ | slot
    · simp only [State.transmitStep, transmitOnce, hslot] at hphase
      cases hphase
    · rcases hres : slot.inner.pollTransmit { input with now := s.now } with ⟨_ | p, _⟩
      · cases first <;>
          simp only [State.transmitStep, transmitOnce, hslot, hres, if_true,
            Bool.false_eq_true, if_false] at hphase <;> cases hphase
      · simp only [State.transmitStep, transmitOnce, hslot, hres] at hphase ⊢
        cases hphase
        exact Option.isSome_iff_exists.mpr ⟨_, slot_setSlot_self hslot _⟩

theorem Ledger.step (hledger : Ledger s h)
    (hroom : polls s a = true → s.engine.txQueue.items.length < s.engine.txQueue.capacity)
    (hstep : s.step a = some s') : Ledger s' (observe s s' a h) := by
  by_cases hpops : a = .writerPops
  · subst hpops
    cases hstep
    exact hledger.writerPops
  · have hfed := step_fed hstep hpops
    have hgiven : ∀ conn transmit, given s a = some (conn, transmit) →
        s'.engine.txQueue.items = s.engine.txQueue.items ++ [payload transmit] := by
      intro conn transmit hconn
      cases a with
      | transmit input =>
        refine transmit_given hstep hconn (hroom ?_)
        simp only [given] at hconn
        split at hconn
        · rename_i hphase
          simp only [polls, hphase]
        · cases hconn
      | _ => cases hconn
    have hnext := hledger.of_fed hfed hgiven (nextOwed s a h)
    cases a with
    | writerPops => exact absurd rfl hpops
    | runOnce =>
      simp only [State.step, Option.ite_none_right_eq_some, Option.some.injEq] at hstep
      obtain ⟨-, rfl⟩ := hstep
      exact ⟨hledger.queue, hledger.placed⟩
    | _ => exact hnext

theorem Occupied.step (hoccupied : Occupied s) (hstep : s.step a = some s') : Occupied s' := by
  intro slotIdx firstPoll todo didWork last hat
  cases State.step_turn hstep with
  | transmit => exact transmitStep_occupied hat
  | noPacket _ _ _ _ hnext => rcases hnext with rfl | rfl <;> cases hat
  | outside _ houtside =>
    rw [slot, houtside.same.connections]
    exact hoccupied slotIdx firstPoll todo didWork last (houtside.phase ▸ hat)
  | writerPops =>
    rw [slot, s.writerPops_sameConnections.connections]
    exact hoccupied slotIdx firstPoll todo didWork last ((writerPops_same s).2 ▸ hat)
  | packet | command | noCommand | timer | lastTransmit | stop | runOnce => cases hat

theorem covered_of_same (hphase : s'.phase = s.phase)
    (hpending : s'.engine.pendingSend = s.engine.pendingSend) (hcovered : Covered s runs o) :
    Covered s' runs o := by
  unfold Covered at hcovered ⊢
  rw [hphase, hpending]
  exact hcovered

theorem covered_step (hoccupied : Occupied s) (hcovered : ∀ o ∈ h.owed, Covered s h.runs o)
    (hstep : s.step a = some s') :
    ∀ o ∈ (observe s s' a h).owed, Covered s' (observe s s' a h).runs o := by
  have hquiet {phase : Phase} (hphase : s.phase = phase) (hq : Phase.quiet phase = true) (o : Owed)
      (ho : o ∈ h.owed) : o.slot ∈ s.engine.pendingSend :=
    covered_of_pending (by rw [hphase]; exact hq) (hcovered o ho)
  have htimer {due : List Nat} {didWork : Bool} (hphase : s.phase = .timers due didWork) (o : Owed)
      (ho : o ∈ h.owed) : o.slot ∈ s.engine.pendingSend ∧ o.run = h.runs := by
    have hat := hcovered o ho
    unfold Covered at hat
    simpa only [hphase] using hat
  cases State.step_turn hstep with
  | @packet queue _ _ rest _ event replies hphase =>
    intro o ho
    exact (Extends.dispatch (e := { s.engine with rxQueues := s.engine.rxQueues.set queue rest })
      replies event).pending (hquiet hphase rfl o ho)
  | noPacket _ _ hphase _ hnext =>
    intro o ho
    rcases hnext with rfl | rfl <;> exact hquiet hphase rfl o ho
  | @command _ cmd cmdQueue input hphase =>
    intro o ho
    exact (Extends.of_moves (work_processCommand { s.engine with cmdQueue } input cmd)).pending
      (hquiet hphase rfl o ho)
  | noCommand _ hphase =>
    exact fun o ho => covered_startTransmit _ false (hquiet hphase rfl o ho)
  | timer input replies hphase =>
    intro o ho
    obtain ⟨hpending, hrun⟩ := htimer hphase o ho
    exact ⟨(Extends.of_moves (work_fireTimer _ _ input replies _)).pending hpending, hrun⟩
  | lastTransmit _ _ hphase =>
    exact fun o ho => covered_startTransmit true true (htimer hphase o ho).1
  | stop _ _ hphase => exact htimer hphase
  | @transmit current todo _ _ input hphase =>
    rcases current with _ | ⟨slotIdx, _⟩
    · rcases todo with _ | ⟨_, _⟩
      · exact covered_end input hphase hcovered
      · exact covered_begin input hphase hcovered
    · exact covered_poll input hphase (hoccupied _ _ _ _ _ hphase) hcovered
  | runOnce _ hphase => exact hquiet hphase rfl
  | writerPops =>
    obtain ⟨hpending, hphase⟩ := writerPops_same s
    exact fun o ho => covered_of_same hphase hpending (hcovered o ho)
  | outside ha houtside =>
    have howed : (observe s s' a h).owed = h.owed ∧
        (observe s s' a h).runs = h.runs := by
      cases a with
      | writerPops | runOnce | receive | command | transmit | timer => cases ha
      | _ => exact ⟨rfl, rfl⟩
    rw [howed.1, howed.2]
    exact fun o ho => covered_of_same houtside.phase houtside.pendingSend (hcovered o ho)

end Steps

theorem kept_of_room {s : State × History} (hs : history.ReachableVia Room s) : Kept s := by
  have hinv : Inv s := by
    refine System.ReachableVia.invariant ?_ ?_ hs
    · rintro ⟨s, h⟩ ⟨⟨config, networkTiles, rfl⟩, rfl⟩
      refine ⟨⟨rfl, rfl⟩, ?_, ?_⟩
      · intro _ _ _ _ _ hat
        cases hat
      · intro o ho
        cases ho
    · rintro ⟨s, h⟩ a ⟨s', h'⟩ hinv hroom hstep
      obtain ⟨t, ht, heq⟩ := Option.map_eq_some_iff.mp hstep
      cases heq
      exact ⟨hinv.ledger.step hroom ht, hinv.occupied.step ht,
        covered_step hinv.occupied hinv.covered ht⟩
  refine ⟨hinv.ledger.queue, hinv.ledger.placed, ?_, ?_⟩
  · intro hquiet o ho
    exact covered_of_pending hquiet (hinv.covered o ho)
  · intro hidle o ho
    have hcovered := hinv.covered o ho
    unfold Covered at hcovered
    rw [hidle] at hcovered
    exact hcovered.2

def hasRoom (s : State × History) (a : Label) : Bool :=
  !polls s.1 a || decide (s.1.engine.txQueue.items.length < s.1.engine.txQueue.capacity)

def connect : List Label :=
  [.arrive 0 [0], .runOnce 0, .receive newClient replies]

/-- The buffer holds more than the datagram. -/
def transmitPacket : Connection.TransmitInput :=
  ⟨0, false, [.packet none false false .none], none, ⟨[1, 2], 1⟩⟩

def answer : List Label :=
  [.receive .nothing replies, .receive .nothing replies, .command commandInput,
    .transmit transmitNothing, .transmit transmitPacket]

def endRunOnce : List Label :=
  [.transmit transmitNothing, .transmit transmitNothing,
    .timer ⟨(⟨[], [], [], [], false, false⟩, .none), 0⟩ replies, .transmit transmitNothing,
    .transmit transmitNothing, .transmit transmitNothing]

theorem answer_kept : ∃ s, history.ReachableVia Room s ∧ s.1.phase = .idle ∧
    s.2.obtained = [(0, ⟨[1, 2], 1⟩)] ∧ s.1.engine.txQueue.items = [[1]] ∧
    (s.2.obtained.map fun given => (given.1, payload given.2)) =
      (s.2.taken ++ s.2.queued).filterMap Entry.sent := by
  have hinitial : history.ReachableVia Room (.initial config 1, .empty) :=
    .initial ⟨⟨config, 1, rfl⟩, rfl⟩
  refine hinitial.exists_of_runChecked (fun s a (h : hasRoom s a = true) hpolls => ?_)
    (connect ++ (answer ++ endRunOnce)) ?_
  · simpa [hasRoom, hpolls] using h
  exact ⟨_, rfl, fun hreach => ⟨rfl, rfl, rfl, (kept_of_room hreach).placed⟩⟩

/-! A full queue takes nothing until the writer pops. -/

/-- The steps of everyone but the writer, within one `run_once`. -/
def stays : Label → Bool
  | .writerPops | .runOnce _ => false
  | _ => true

theorem observe_of_stays {s' : State} {h : History} {a : Label} (ha : stays a = true) :
    observe s s' a h = { h with
        obtained := h.obtained ++ (given s a).toList
        queued := h.queued ++ added s s' a
        owed := nextOwed s a h } := by
  cases a with
  | writerPops | runOnce => cases ha
  | _ => rfl

theorem run_of_full {labels : List Label} {s s' : State × History}
    (hfull : s.1.engine.txQueue.items.length = s.1.engine.txQueue.capacity)
    (hstays : labels.all stays = true) (hrun : history.run s labels = some s') :
    s'.2.taken = s.2.taken ∧ s'.2.queued = s.2.queued := by
  induction labels generalizing s with
  | nil =>
    cases hrun
    exact ⟨rfl, rfl⟩
  | cons a _ ih =>
    obtain ⟨ha, hstays⟩ := Bool.and_eq_true_iff.mp hstays
    obtain ⟨t, ht, hrun⟩ := Option.bind_eq_some_iff.mp hrun
    obtain ⟨_, hstep, rfl⟩ := Option.map_eq_some_iff.mp ht
    have hpops : a ≠ .writerPops := by
      rintro rfl
      cases ha
    have hqueue := (step_fed hstep hpops).eq_of_full hfull
    obtain ⟨htaken, hqueued⟩ := ih (by rw [hqueue]; exact hfull) hstays hrun
    rw [htaken, hqueued, observe_of_stays ha]
    refine ⟨rfl, ?_⟩
    rw [added, hqueue, drop_length, map_nil, append_nil]

def unknownVersion : List Label :=
  [.arrive 0 [0], .receive (.response ⟨[2], 1⟩) replies]

theorem run_unknownVersion (n : Nat) (h : History) (hphase : s.phase = .receive 0 true)
    (hrx : s.engine.rxQueues = [.new queueCap])
    (hroom : s.engine.txQueue.items.length + n ≤ s.engine.txQueue.capacity) :
    ∃ q : ArrayQueue Bytes, q.capacity = s.engine.txQueue.capacity ∧
      q.items = s.engine.txQueue.items ++ replicate n [2] ∧
      history.run (s, h) (replicate n unknownVersion).flatten =
        some ({ s with engine := { s.engine with txQueue := q } },
          { h with queued := h.queued ++ replicate n ⟨none, [2]⟩ }) := by
  induction n generalizing s h with
  | zero => exact ⟨s.engine.txQueue, rfl, by simp, by simp [System.run]⟩
  | succ _ ih =>
    have hlt : s.engine.txQueue.items.length < s.engine.txQueue.capacity := by omega
    obtain ⟨q, hq, hitems, hcapacity⟩ := push_of_room hlt ([2] : Bytes)
    have hstep : history.run (s, h) unknownVersion =
        some ({ s with engine := { s.engine with txQueue := q } },
          { h with queued := h.queued ++ [⟨none, [2]⟩] }) := by
      have harrive : (new queueCap : ArrayQueue Bytes).push [0] =
          some ⟨queueCap, [[0]], by decide⟩ := rfl
      have hpop : (⟨queueCap, [[0]], by decide⟩ : ArrayQueue Bytes).pop =
          some ([0], .new queueCap) := rfl
      simp [unknownVersion, System.run, history, State.step, State.arrive,
        harrive, hphase, State.receiveStep, hrx, hpop, dispatch,
        enqueueProtoTransmit, pushTx, hq, observe, added, given, nextOwed, hitems]
    obtain ⟨q', hcapacity', hitems', hrun⟩ :=
      ih (s := { s with engine := { s.engine with txQueue := q } })
        { h with queued := h.queued ++ [⟨none, [2]⟩] } hphase hrx (by
          rw [hitems, hcapacity, length_append, length_singleton]
          omega)
    refine ⟨q', hcapacity'.trans hcapacity, ?_, ?_⟩
    · rw [hitems', hitems, append_assoc]
      rfl
    · rw [replicate_succ, flatten_cons, System.run_append hstep, hrun, append_assoc]
      rfl

def flood : List Label :=
  connect ++ ((List.replicate queueCap unknownVersion).flatten ++ answer)

theorem flood_loses : ∃ s, history.Reachable s ∧
    s.2.obtained = [(0, ⟨[1, 2], 1⟩)] ∧ (s.2.taken ++ s.2.queued).filterMap Entry.sent = [] := by
  obtain ⟨s, h, hconnect, hphase, hrx, htx, hempty, hanswer⟩ : ∃ s h,
      history.run (.initial config 1, .empty) connect = some (s, h) ∧
      s.phase = .receive 0 true ∧ s.engine.rxQueues = [.new queueCap] ∧
      s.engine.txQueue = .new queueCap ∧ h.obtained = [] ∧ h.taken = [] ∧ h.queued = [] ∧
      ∀ q queued, ∃ s', history.run ({ s with engine := { s.engine with txQueue := q } },
          { h with queued }) answer = some s' ∧ s'.2.obtained = [(0, ⟨[1, 2], 1⟩)] :=
    ⟨_, _, rfl, rfl, rfl, rfl, rfl, rfl, rfl, fun _ _ => ⟨_, rfl, rfl⟩⟩
  obtain ⟨htaken, hqueued, hanswer⟩ := hanswer
  obtain ⟨q, hcapacity, hitems, hfill⟩ := run_unknownVersion queueCap h hphase hrx (by
    rw [htx]
    exact le_of_eq (zero_add _))
  obtain ⟨s', hrun, hobtained⟩ := hanswer q (h.queued ++ replicate queueCap ⟨none, [2]⟩)
  have hfull : q.items.length = q.capacity := by
    rw [hitems, hcapacity, htx, length_append, length_replicate]
    exact zero_add _
  obtain ⟨htaken', hqueued'⟩ := run_of_full hfull (by decide) hrun
  have hflood : history.run (.initial config 1, .empty) flood = some s' := by
    rw [flood, System.run_append hconnect, System.run_append hfill, hrun]
  refine ⟨s', .of_run (.initial ⟨⟨config, 1, rfl⟩, rfl⟩) hflood, hobtained, ?_⟩
  · rw [htaken', hqueued', htaken, hqueued]
    simp [Entry.sent]

end Quac.TransmitQueue
