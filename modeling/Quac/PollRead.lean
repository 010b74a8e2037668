import Quac.Lib.Transition
import Quac.TileEngine

/-!
`RecvStream::poll_read` against the last phase of `drain_readable_stream`.  Each
access of either side to the stream's cell is a step of its own.
-/

namespace Quac.PollRead

open Bridge Identifiers Lib.BoundedQueue Lib.Transition TileEngine

inductive Poll
  | ready (filled : Bytes)
  | pending

/-- Where a call stands; `recheck` tells the second pop and load from the first. -/
inductive ReaderPc
  | idle
  | checkLeftover
  | pop (recheck : Bool)
  | loadFin (recheck : Bool)
  | register
  | returned (result : Poll)

inductive EnginePc
  | idle
  | deliver (chunks : List Bytes) (pushed fin : Bool)
  | wake (due : Bool)
deriving DecidableEq

/-- `remaining` and `task` belong to the last call.  `pushed` and `copied` record
what went into the cell and what came out of the calls; `ended` that the stream
has given its FIN to the engine, which then reads nothing more from it. -/
structure State where
  cell : StreamCell
  leftover : Bytes
  reader : ReaderPc
  remaining : Nat
  task : Task
  engine : EnginePc
  ended : Bool
  pushed : List Bytes
  copied : Bytes

variable {s s' : State}

inductive Label
  | call (remaining : Nat) (task : Task)
  | read
  /-- The engine has read `chunks` from the stream, and FIN behind them. -/
  | drain (chunks : List Bytes) (fin : Bool)
  | engine

namespace State

def initial : State where
  cell := .new
  leftover := []
  reader := .idle
  remaining := 0
  task := 0
  engine := .idle
  ended := false
  pushed := []
  copied := []

def fill (s : State) (chunk : Bytes) : State :=
  { s with
    leftover := chunk.drop s.remaining
    reader := .returned (.ready (chunk.take s.remaining))
    copied := s.copied ++ chunk.take s.remaining }

def readStep (s : State) : Option State :=
  match s.reader with
  | .idle | .returned _ => none
  | .checkLeftover =>
    if s.leftover.isEmpty then some { s with reader := .pop false }
    else some (s.fill s.leftover)
  | .pop recheck =>
    match s.cell.recvData.pop with
    | some (chunk, recvData) => some (fill { s with cell := { s.cell with recvData } } chunk)
    | none => some { s with reader := .loadFin recheck }
  | .loadFin recheck =>
    if s.cell.recvFin then some { s with reader := .returned (.ready []) }
    else if recheck then some { s with reader := .returned .pending }
    else some { s with reader := .register }
  | .register =>
    some { s with
      cell := { s.cell with recvWaker := some s.task }
      reader := .pop true }

def engineStep (s : State) : Option State :=
  match s.engine with
  | .idle => none
  | .deliver (chunk :: chunks) pushed fin =>
    match s.cell.recvData.push chunk with
    | some recvData =>
      some { s with
        cell := { s.cell with recvData }
        engine := .deliver chunks true fin
        pushed := s.pushed ++ [chunk] }
    | none => some { s with engine := .deliver chunks pushed fin }
  | .deliver [] pushed fin =>
    some { s with
      cell := { s.cell with recvFin := s.cell.recvFin || fin }
      engine := .wake (pushed || fin) }
  | .wake due =>
    some { s with
      cell := { s.cell with recvWaker := if due then none else s.cell.recvWaker }
      engine := .idle }

/-- The engine may enter phase 3 with what phase 2 can give it. -/
def CanDrain (s : State) (chunks : List Bytes) : Prop :=
  s.engine = .idle ∧ s.ended = false ∧ (∀ chunk ∈ chunks, chunk ≠ []) ∧
    chunks.length ≤ recvDataCap - s.cell.recvData.items.length

instance (s : State) (chunks : List Bytes) : Decidable (s.CanDrain chunks) :=
  inferInstanceAs (Decidable (_ ∧ _ ∧ _ ∧ _))

def CanCall (s : State) : Bool :=
  match s.reader with
  | .idle | .returned _ => true
  | _ => false

def step (s : State) : Label → Option State
  | .call remaining task =>
    if s.CanCall then some { s with reader := .checkLeftover, remaining, task } else none
  | .read => s.readStep
  | .drain chunks fin =>
    if s.CanDrain chunks then
      some { s with engine := .deliver chunks false fin, ended := fin }
    else none
  | .engine => s.engineStep

end State

def system : System State Label where
  initial s := s = .initial
  step := State.step

/-- The call has found the queue empty and is about to look at the FIN flag. -/
def State.AtLoadFin (s : State) : Prop :=
  ∃ recheck, s.reader = .loadFin recheck

/-- The engine does not set the FIN flag between a call's failed pop and its load of
the flag, unless the queue is still empty. -/
def FinNotInWindow (s : State) (a : Label) : Prop :=
  ∀ pushed, a = .engine → s.engine = .deliver [] pushed true → s.AtLoadFin →
    s.cell.recvData.items = []

structure State.Inv (s : State) : Prop where
  flow : s.pushed.flatten = s.copied ++ s.leftover ++ s.cell.recvData.items.flatten
  queued_ne : ∀ chunk ∈ s.cell.recvData.items, chunk ≠ []
  deliver_ne : ∀ chunks pushed fin, s.engine = .deliver chunks pushed fin →
    ∀ chunk ∈ chunks, chunk ≠ []
  leftover_nil : s.CanCall = false → s.reader ≠ .checkLeftover → s.leftover = []
  fin_ended : s.cell.recvFin = true → s.ended = true
  fin_last : ∀ chunks pushed fin, s.engine = .deliver chunks pushed fin → s.cell.recvFin = false
  deliver_ended : ∀ chunks pushed, s.engine = .deliver chunks pushed true → s.ended = true
  fin_empty : s.cell.recvFin = true → s.AtLoadFin → s.cell.recvData.items = []
  eof : s.reader = .returned (.ready []) → 0 < s.remaining →
    s.cell.recvFin = true ∧ s.leftover = [] ∧ s.cell.recvData.items = []

open State List

theorem State.initial_inv : initial.Inv where
  flow := rfl
  queued_ne := by simp [initial, StreamCell.new, ArrayQueue.new]
  deliver_ne := by simp [initial]
  leftover_nil _ _ := rfl
  fin_ended := by simp [initial, StreamCell.new]
  fin_last := by simp [initial]
  deliver_ended := by simp [initial]
  fin_empty _ _ := rfl
  eof := by simp [initial]

theorem State.Inv.fill (h : s.Inv) {cell : StreamCell} {chunk : Bytes}
    (hne : chunk ≠ []) (hfin : cell.recvFin = s.cell.recvFin)
    (hsub : ∀ queued ∈ cell.recvData.items, queued ∈ s.cell.recvData.items)
    (hflow : s.leftover ++ s.cell.recvData.items.flatten =
      chunk ++ cell.recvData.items.flatten) : (State.fill { s with cell } chunk).Inv where
  flow := by
    rw [show (State.fill { s with cell } chunk).pushed = s.pushed from rfl, h.flow,
      append_assoc, hflow]
    simp only [State.fill, append_assoc]
    rw [← append_assoc (chunk.take _), take_append_drop]
  queued_ne queued hq := h.queued_ne queued (hsub queued hq)
  deliver_ne := h.deliver_ne
  leftover_nil hcall := by simp [State.fill, CanCall] at hcall
  fin_ended hf := h.fin_ended (hfin ▸ hf)
  fin_last chunks pushed fin he := hfin.trans (h.fin_last chunks pushed fin he)
  deliver_ended := h.deliver_ended
  fin_empty := by
    rintro - ⟨recheck, hr⟩
    simp [State.fill] at hr
  eof hr hpos := by
    -- A non-empty chunk and room for it give a non-empty result.
    have hnil : chunk.take s.remaining = [] := by simpa [State.fill] using hr
    rcases take_eq_nil_iff.mp hnil with h0 | h0
    · exact absurd hpos (by simp [State.fill, h0])
    · exact absurd h0 hne

theorem State.Inv.goto (h : s.Inv) {pc : ReaderPc} {cell : StreamCell}
    (hdata : cell.recvData = s.cell.recvData) (hfin : cell.recvFin = s.cell.recvFin)
    (hleft : s.leftover = [])
    (hload : ∀ recheck, pc = .loadFin recheck → s.cell.recvData.items = [])
    (heof : pc = .returned (.ready []) → s.cell.recvFin = true ∧ s.cell.recvData.items = []) :
    State.Inv { s with cell, reader := pc } where
  flow := by
    rw [hdata]
    exact h.flow
  queued_ne := hdata ▸ h.queued_ne
  deliver_ne := h.deliver_ne
  leftover_nil _ _ := hleft
  fin_ended hf := h.fin_ended (hfin ▸ hf)
  fin_last chunks pushed fin he := hfin.trans (h.fin_last chunks pushed fin he)
  deliver_ended := h.deliver_ended
  fin_empty := by
    rintro - ⟨recheck, hr⟩
    rw [hdata]
    exact hload recheck hr
  eof hr _ := by
    rw [hdata, hfin]
    exact ⟨(heof hr).1, hleft, (heof hr).2⟩

theorem State.Inv.readStep (h : s.Inv) (hs : s.readStep = some s') : s'.Inv := by
  unfold State.readStep at hs
  split at hs
  · simp at hs
  · simp at hs
  · split_ifs at hs with hempty
    · cases hs
      exact h.goto rfl rfl (isEmpty_iff.mp hempty) (by simp) (by simp)
    · cases hs
      exact h.fill (fun h0 => hempty (isEmpty_iff.mpr h0)) rfl (fun _ hq => hq) rfl
  · rename_i recheck hreader
    have hleft := h.leftover_nil (by simp [CanCall, hreader]) (by simp [hreader])
    split at hs
    · rename_i chunk recvData hpop
      obtain ⟨-, hitems⟩ := ArrayQueue.pop_eq_some hpop
      cases hs
      refine h.fill (h.queued_ne chunk (by simp [hitems])) rfl ?_ ?_
      · intro queued hq
        rw [hitems]
        exact mem_cons_of_mem _ hq
      · rw [hleft, hitems]
        rfl
    · rename_i hpop
      cases hs
      exact h.goto rfl rfl hleft (fun _ _ => ArrayQueue.pop_eq_none hpop) (by simp)
  · rename_i recheck hreader
    have hleft := h.leftover_nil (by simp [CanCall, hreader]) (by simp [hreader])
    split_ifs at hs with hfin hre
    · cases hs
      exact h.goto rfl rfl hleft (by simp) fun _ => ⟨hfin, h.fin_empty hfin ⟨recheck, hreader⟩⟩
    all_goals
      cases hs
      exact h.goto rfl rfl hleft (by simp) (by simp)
  · rename_i hreader
    have hleft := h.leftover_nil (by simp [CanCall, hreader]) (by simp [hreader])
    cases hs
    exact h.goto rfl rfl hleft (by simp) (by simp)

theorem State.Inv.engineStep (h : s.Inv) (hcond : FinNotInWindow s .engine)
    (hs : s.engineStep = some s') : s'.Inv := by
  unfold State.engineStep at hs
  split at hs
  · simp at hs
  · rename_i chunk chunks pushed fin hengine
    have hopen := h.fin_last _ _ _ hengine
    have hchunk := h.deliver_ne _ _ _ hengine
    split at hs
    · rename_i recvData hpush
      obtain ⟨-, -, hitems⟩ := ArrayQueue.push_eq_some hpush
      cases hs
      constructor
      · simp [h.flow, hitems]
      · intro queued hq
        rw [hitems, mem_append, mem_singleton] at hq
        rcases hq with hq | rfl
        · exact h.queued_ne queued hq
        · exact hchunk queued mem_cons_self
      · rintro _ _ _ ⟨⟩ queued hq
        exact hchunk queued (mem_cons_of_mem _ hq)
      · exact h.leftover_nil
      · exact h.fin_ended
      · exact fun _ _ _ _ => hopen
      · rintro _ _ ⟨⟩
        exact h.deliver_ended _ _ hengine
      · exact fun hf => absurd hf (by simp [hopen])
      · exact fun hr hpos => absurd (h.eof hr hpos).1 (by simp [hopen])
    · cases hs
      refine { h with deliver_ne := ?_, fin_last := fun _ _ _ _ => hopen, deliver_ended := ?_ }
      · rintro _ _ _ ⟨⟩ queued hq
        exact hchunk queued (mem_cons_of_mem _ hq)
      · rintro _ _ ⟨⟩
        exact h.deliver_ended _ _ hengine
  · rename_i pushed fin hengine
    have hopen := h.fin_last _ _ _ hengine
    cases hs
    refine ⟨h.flow, h.queued_ne, by simp, h.leftover_nil, ?_, by simp, by simp, ?_, ?_⟩
    · intro hf
      have hfin : fin = true := by simpa [hopen] using hf
      exact h.deliver_ended [] pushed (hfin ▸ hengine)
    · intro hf hload
      have hfin : fin = true := by simpa [hopen] using hf
      exact hcond pushed rfl (hfin ▸ hengine) hload
    · exact fun hr hpos => absurd (h.eof hr hpos).1 (by simp [hopen])
  · cases hs
    exact { h with deliver_ne := by simp, fin_last := by simp, deliver_ended := by simp }

theorem State.Inv.step {a : Label} (h : s.Inv) (hcond : FinNotInWindow s a)
    (hs : s.step a = some s') : s'.Inv := by
  cases a with
  | call =>
    simp only [State.step, Option.ite_none_right_eq_some, Option.some.injEq] at hs
    obtain ⟨-, rfl⟩ := hs
    refine { h with leftover_nil := fun _ hne => absurd rfl hne, fin_empty := ?_, eof := by simp }
    rintro - ⟨recheck, hr⟩
    simp at hr
  | read => exact h.readStep hs
  | drain =>
    simp only [State.step, Option.ite_none_right_eq_some, Option.some.injEq] at hs
    obtain ⟨⟨-, hended, hne, -⟩, rfl⟩ := hs
    have hopen : s.cell.recvFin = false := by
      by_contra hf
      simp [h.fin_ended (by simpa using hf)] at hended
    refine ⟨h.flow, h.queued_ne, ?_, h.leftover_nil, fun hf => absurd hf (by simp [hopen]),
      fun _ _ _ _ => hopen, ?_, h.fin_empty, h.eof⟩
    · rintro _ _ _ ⟨⟩
      exact hne
    · rintro _ _ ⟨⟩
      rfl
  | engine => exact h.engineStep hcond hs

theorem inv_of_reachableVia (hs : system.ReachableVia FinNotInWindow s) : s.Inv := by
  refine System.ReachableVia.invariant ?_ ?_ hs
  · rintro s rfl
    exact initial_inv
  · intro s a s' h hcond hstep
    exact h.step hcond hstep

/-- A call with room in its buffer that fills nothing has nothing left to read. -/
theorem copied_of_eof {s : State} (hs : system.ReachableVia FinNotInWindow s)
    (hr : s.reader = .returned (.ready [])) (hpos : 0 < s.remaining) :
    s.copied = s.pushed.flatten := by
  have h := inv_of_reachableVia hs
  obtain ⟨-, hleft, hempty⟩ := h.eof hr hpos
  rw [h.flow, hleft, hempty]
  simp

/-- The engine keeps still while a call stands at its load of the flag. -/
def engineWaits (s : State) : Label → Bool
  | .engine =>
    match s.reader with
    | .loadFin _ => false
    | _ => true
  | _ => true

def readToEnd : List Label :=
  [.drain [[1]] true, .engine, .engine, .engine, .call 8 0, .read, .read, .call 8 0, .read,
    .read, .read]

theorem readToEnd_copied : ∃ s, system.ReachableVia FinNotInWindow s ∧
    s.reader = .returned (.ready []) ∧ s.pushed = [[1]] ∧ s.copied = s.pushed.flatten := by
  refine System.ReachableVia.exists_of_runChecked
    (fun s a (h : engineWaits s a = true) => ?_) (.initial rfl) readToEnd ?_
  · rintro pushed rfl - ⟨recheck, hr⟩
    simp [engineWaits, hr] at h
  exact ⟨_, rfl, fun hreach => ⟨rfl, rfl, copied_of_eof hreach rfl (by decide)⟩⟩

def finInWindow : List Label :=
  [.call 8 0, .read, .read, .drain [[1]] true, .engine, .engine, .read]

theorem finInWindow_eof : ∃ s, system.Reachable s ∧ s.reader = .returned (.ready []) ∧
    0 < s.remaining ∧ s.copied ≠ s.pushed.flatten := by
  have hinitial : system.Reachable .initial := .initial rfl
  refine hinitial.exists_of_run finInWindow ?_
  exact ⟨_, rfl, rfl, by decide, by decide⟩

/-- `poll_read` when the engine does not come in between: the result, what is left of
the chunk, and the cell. -/
def pollRead (cell : StreamCell) (leftover : Bytes) (remaining : Nat) (task : Task) :
    Poll × Bytes × StreamCell :=
  if !leftover.isEmpty then (.ready (leftover.take remaining), leftover.drop remaining, cell)
  else
    match cell.recvData.pop with
    | some (chunk, recvData) =>
      (.ready (chunk.take remaining), chunk.drop remaining, { cell with recvData })
    | none =>
      if cell.recvFin then (.ready [], leftover, cell)
      else (.pending, leftover, { cell with recvWaker := some task })

def Poll.filled : Poll → Bytes
  | .ready bytes => bytes
  | .pending => []

def State.afterCall (s : State) (remaining : Nat) (task : Task) : State :=
  let (result, leftover, cell) := pollRead s.cell s.leftover remaining task
  { s with
    cell, leftover, remaining, task
    reader := .returned result
    copied := s.copied ++ result.filled }

/-- The steps of a call that nothing interrupts add up to `pollRead`. -/
theorem run_call (hs : s.CanCall = true) (remaining : Nat) (task : Task) :
    ∃ steps, system.run s (.call remaining task :: replicate steps .read) =
      some (s.afterCall remaining task) := by
  by_cases hleft : s.leftover = []
  · rcases hpop : s.cell.recvData.pop with _ | ⟨_, _⟩
    · by_cases hfin : s.cell.recvFin = true
      · refine ⟨3, ?_⟩
        simp [System.run, system, hs, step, readStep, afterCall, pollRead,
          Poll.filled, replicate, hleft, hpop, hfin]
      · refine ⟨6, ?_⟩
        simp [System.run, system, hs, step, readStep, afterCall, pollRead,
          Poll.filled, replicate, hleft, hpop, hfin]
    · refine ⟨2, ?_⟩
      simp [System.run, system, hs, step, readStep, fill, afterCall,
        pollRead, Poll.filled, replicate, hleft, hpop]
  · refine ⟨1, ?_⟩
    simp [System.run, system, hs, step, readStep, fill, afterCall,
      pollRead, Poll.filled, replicate, hleft]

def longChunk : State :=
  { initial with cell := { StreamCell.new with recvData := ⟨recvDataCap, [[1, 2, 3]], by decide⟩ } }

theorem run_call_longChunk :
    (∃ steps, system.run longChunk (.call 2 0 :: replicate steps .read) =
      some (longChunk.afterCall 2 0)) ∧
    (longChunk.afterCall 2 0).copied = [1, 2] ∧ (longChunk.afterCall 2 0).leftover = [3] :=
  ⟨run_call rfl 2 0, rfl, rfl⟩

/-- The steps of the engine that nothing interrupts add up to `Engine.deliver`. -/
theorem run_deliver (chunks : List Bytes) {pushed fin : Bool}
    (hs : s.engine = .deliver chunks pushed fin) :
    ∃ s', system.run s (replicate (chunks.length + 2) .engine) = some s' ∧
      s'.engine = .idle ∧ s'.cell = Engine.deliverFrom pushed s.cell chunks fin := by
  induction chunks generalizing s pushed with
  | nil =>
    simp [System.run, system, step, engineStep, hs, Engine.deliverFrom, replicate_succ]
  | cons chunk chunks ih =>
    rcases hpush : s.cell.recvData.push chunk with _ | recvData
    · obtain ⟨s', hrun, hidle, hcell⟩ :=
        ih (s := { s with engine := .deliver chunks pushed fin }) rfl
      refine ⟨s', ?_, hidle, ?_⟩
      · simpa [System.run, system, step, engineStep, hs, hpush, replicate_succ] using hrun
      · simpa [Engine.deliverFrom, hpush] using hcell
    · obtain ⟨s', hrun, hidle, hcell⟩ :=
        ih (s := { s with
          cell := { s.cell with recvData }
          engine := .deliver chunks true fin
          pushed := s.pushed ++ [chunk] }) rfl
      refine ⟨s', ?_, hidle, ?_⟩
      · simpa [System.run, system, step, engineStep, hs, hpush, replicate_succ] using hrun
      · simpa [Engine.deliverFrom, hpush] using hcell

theorem run_deliver_one : ∃ s', system.run { initial with engine := .deliver [[1]] false true }
    (replicate 3 .engine) = some s' ∧ s'.engine = .idle := by
  obtain ⟨s', hrun, hidle, -⟩ := run_deliver [[1]]
    (s := { initial with engine := .deliver [[1]] false true }) rfl
  exact ⟨s', hrun, hidle⟩

/-- What the engine hands over is neither lost nor repeated, whoever moves next. -/
structure State.Flow (s : State) : Prop where
  flow : s.pushed.flatten = s.copied ++ s.leftover ++ s.cell.recvData.items.flatten
  leftover_nil : s.CanCall = false → s.reader ≠ .checkLeftover → s.leftover = []
  capacity : s.cell.recvData.capacity = recvDataCap
  room : ∀ chunks pushed fin, s.engine = .deliver chunks pushed fin →
    s.cell.recvData.items.length + chunks.length ≤ recvDataCap

theorem State.Flow.readStep (h : s.Flow) (hs : s.readStep = some s') : s'.Flow := by
  unfold State.readStep at hs
  split at hs
  · cases hs
  · cases hs
  · split_ifs at hs with hempty
    · cases hs
      exact { h with leftover_nil := fun _ _ => isEmpty_iff.mp hempty }
    · cases hs
      exact { h with flow := by simp [fill, h.flow], leftover_nil := by simp [fill, CanCall] }
  all_goals
    rename_i hreader
    have hleft := h.leftover_nil (by simp [CanCall, hreader]) (by simp [hreader])
  · split at hs
    · rename_i hpop
      obtain ⟨hcapacity, hitems⟩ := ArrayQueue.pop_eq_some hpop
      cases hs
      refine ⟨by simp [fill, h.flow, hleft, hitems], by simp [fill, CanCall],
        hcapacity.trans h.capacity, fun chunks pushed fin hengine => ?_⟩
      have hroom := h.room _ _ _ hengine
      rw [hitems, length_cons] at hroom
      dsimp only [fill]
      omega
    · cases hs
      exact { h with leftover_nil := fun _ _ => hleft }
  · split_ifs at hs <;> cases hs <;> exact { h with leftover_nil := fun _ _ => hleft }
  · cases hs
    exact { h with leftover_nil := fun _ _ => hleft }

theorem State.Flow.engineStep (h : s.Flow) (hs : s.engineStep = some s') : s'.Flow := by
  unfold State.engineStep at hs
  split at hs
  · cases hs
  · rename_i hengine
    have hroom := h.room _ _ _ hengine
    rw [length_cons] at hroom
    split at hs
    · rename_i hpush
      obtain ⟨-, hcapacity, hitems⟩ := ArrayQueue.push_eq_some hpush
      cases hs
      refine ⟨by simp [h.flow, hitems], h.leftover_nil, hcapacity.trans h.capacity, ?_⟩
      rintro _ _ _ ⟨⟩
      rw [hitems, length_append, length_singleton]
      omega
    · cases hs
      refine { h with room := ?_ }
      rintro _ _ _ ⟨⟩
      exact Nat.le_of_succ_le hroom
  all_goals
    cases hs
    exact { h with room := by simp }

theorem State.Flow.step {a : Label} (h : s.Flow) (hs : s.step a = some s') : s'.Flow := by
  cases a with
  | call =>
    simp only [State.step, Option.ite_none_right_eq_some, Option.some.injEq] at hs
    obtain ⟨-, rfl⟩ := hs
    exact { h with leftover_nil := fun _ hne => absurd rfl hne }
  | read => exact h.readStep hs
  | drain =>
    simp only [State.step, Option.ite_none_right_eq_some, Option.some.injEq] at hs
    obtain ⟨⟨-, -, -, hle⟩, rfl⟩ := hs
    have hlength := s.cell.recvData.length_le
    rw [h.capacity] at hlength
    refine { h with room := ?_ }
    rintro _ _ _ ⟨⟩
    change s.cell.recvData.items.length + _ ≤ _
    omega
  | engine => exact h.engineStep hs

/-- Under every interleaving the reader gets what was pushed, in order, and no push finds the
queue full. -/
theorem read_in_order (hs : system.Reachable s) :
    s.pushed.flatten = s.copied ++ s.leftover ++ s.cell.recvData.items.flatten ∧
      ∀ chunk chunks pushed fin, s.engine = .deliver (chunk :: chunks) pushed fin →
        s.cell.recvData.push chunk ≠ none := by
  have hflow : s.Flow := by
    refine System.Reachable.invariant ?_ (fun _ _ _ h hstep => h.step hstep) hs
    rintro s rfl
    exact ⟨rfl, fun _ _ => rfl, rfl, by simp [initial]⟩
  refine ⟨hflow.flow, fun chunk chunks pushed fin hengine => ?_⟩
  have hroom := hflow.room _ _ _ hengine
  rw [length_cons, ← hflow.capacity] at hroom
  obtain ⟨_, hpush, -⟩ := ArrayQueue.push_of_room (q := s.cell.recvData) (by omega) chunk
  simp [hpush]

theorem finInWindow_in_order : ∃ s, system.Reachable s ∧ s.pushed = [[1]] ∧
    s.pushed.flatten = s.copied ++ s.leftover ++ s.cell.recvData.items.flatten := by
  have hinitial : system.Reachable .initial := .initial rfl
  obtain ⟨s, hreach, hpushed⟩ := hinitial.exists_of_run finInWindow
    (P := fun s => s.pushed = [[1]]) ⟨_, rfl, rfl⟩
  exact ⟨s, hreach, hpushed, (read_in_order hreach).1⟩

end Quac.PollRead
