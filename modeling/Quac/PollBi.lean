import Mathlib.Data.List.Rotate
import Quac.App

/-!
`accept_bi` and `open_bi` against the engine's pushes.  Any number of calls take
turns; each access to the event queue or the waker is a step of its own.
-/

namespace Quac.PollBi

open App Bridge Function Identifiers Lib.BoundedQueue Lib.Transition List Option

inductive Kind
  | acceptBi
  | openBi

def Kind.wanted : Kind → ConnEvent → Option (StreamId × CellId)
  | .acceptBi => peerBi
  | .openBi => localBi

/-- The events that end a call; the others go back to the queue. -/
def Kind.takes (kind : Kind) (event : ConnEvent) : Bool :=
  (kind.wanted event).isSome || event == .connectionClosed

/-- Where a call stands; `last` tells the loop after the registration from the one
before it. -/
inductive Pc
  | waiting
  | check (last : Bool)
  | putBack (event : ConnEvent) (last : Bool)
  | register
  | finished (event : ConnEvent)
deriving DecidableEq

structure Call where
  kind : Kind
  task : Task
  pc : Pc

structure State where
  conn : ConnState
  calls : List Call

variable {i : Nat} {s s' : State}

inductive Label
  | push (event : ConnEvent)
  | wake
  | call (kind : Kind)
  | poll (i : Nat) (task : Task)
  | move (i : Nat)

/-- The loop is left: the poll registers its task, or returns `Pending`. -/
def afterLoop (last : Bool) : Pc :=
  if last then .waiting else .register

namespace State

def initial : State :=
  ⟨.new, []⟩

/-- The next access of a poll to the shared state. -/
def access (conn : ConnState) (c : Call) : Option (ConnState × Pc) :=
  match c.pc with
  | .waiting | .finished _ => none
  | .check last =>
    match conn.evtQueue.pop with
    | none => some (conn, afterLoop last)
    | some (event, evtQueue) =>
      some ({ conn with evtQueue },
        if c.kind.takes event then .finished event else .putBack event last)
  | .putBack event last =>
    some ({ conn with evtQueue := (conn.evtQueue.push event).getD conn.evtQueue }, afterLoop last)
  | .register => some ({ conn with evtWaker := some c.task }, .check true)

def step (s : State) : Label → Option State
  | .push event =>
    some { s with
      conn := { s.conn with evtQueue := (s.conn.evtQueue.push event).getD s.conn.evtQueue } }
  | .wake => some { s with conn := { s.conn with evtWaker := none } }
  | .call kind => some { s with calls := s.calls ++ [⟨kind, 0, .waiting⟩] }
  | .poll i task =>
    match s.calls[i]? with
    | none => none
    | some c =>
      if c.pc = .waiting then
        some { s with calls := s.calls.set i { c with task, pc := .check false } }
      else none
  | .move i =>
    match s.calls[i]? with
    | none => none
    | some c =>
      (access s.conn c).map fun (conn, pc) => ⟨conn, s.calls.set i { c with pc }⟩

end State

def system : System State Label where
  initial s := s = .initial
  step := State.step

variable {conn : ConnState}

section Alone

variable {s : State} {i : Nat} {c : Call}

def Ends (kind : Kind) (last : Bool) (result : Option (Option (StreamId × CellId)))
    (pc : Pc) : Prop :=
  match result with
  | none => pc = afterLoop last
  | some r => ∃ event, pc = .finished event ∧ kind.wanted event = r

open State

theorem run_move (hc : s.calls[i]? = some c) {pc : Pc} (h : access s.conn c = some (conn, pc))
    (n : Nat) : system.run s (replicate (n + 1) (.move i)) =
      system.run ⟨conn, s.calls.set i { c with pc }⟩ (replicate n (.move i)) := by
  simp [replicate_succ, System.run, system, step, hc, h]

/-- A loop that nobody interrupts is `takeEvent`. -/
theorem loop_alone {last : Bool} (hc : s.calls[i]? = some c) (hpc : c.pc = .check last) :
    ∃ n pc, Ends c.kind last (takeEvent c.kind.wanted s.conn.evtQueue).1 pc ∧
      system.run s (replicate n (.move i)) =
        some ⟨{ s.conn with evtQueue := (takeEvent c.kind.wanted s.conn.evtQueue).2 },
          s.calls.set i { c with pc }⟩ := by
  have hlt : i < s.calls.length := (List.getElem?_eq_some_iff.mp hc).1
  rcases hpop : s.conn.evtQueue.pop with _ | ⟨event, evtQueue⟩
  · have haccess : access s.conn c = some (s.conn, afterLoop last) := by
      simp [access, hpc, hpop]
    refine ⟨1, afterLoop last, ?_, ?_⟩
    · simp [takeEvent, hpop, Ends]
    · rw [run_move hc haccess, takeEvent, hpop]
      rfl
  · by_cases htakes : c.kind.takes event = true
    · have haccess : access s.conn c = some ({ s.conn with evtQueue }, .finished event) := by
        simp [access, hpc, hpop, htakes]
      have htake : takeEvent c.kind.wanted s.conn.evtQueue =
          (some (c.kind.wanted event), evtQueue) := by
        rcases hwanted : c.kind.wanted event with _ | _
        · have hclosed : event = .connectionClosed := by simpa [Kind.takes, hwanted] using htakes
          subst hclosed
          simp [takeEvent, hpop, hwanted]
        · simp [takeEvent, hpop, hwanted]
      rw [htake]
      exact ⟨1, .finished event, ⟨event, rfl, rfl⟩, run_move hc haccess 0⟩
    · have hfirst : access s.conn c = some ({ s.conn with evtQueue }, .putBack event last) := by
        simp [access, hpc, hpop, htakes]
      have htake : takeEvent c.kind.wanted s.conn.evtQueue =
          (none, (evtQueue.push event).getD evtQueue) := by
        simp only [Kind.takes, Bool.or_eq_true, not_or, not_isSome_iff_eq_none,
          beq_iff_eq] at htakes
        obtain ⟨hwanted, hopen⟩ := htakes
        cases event with
        | connectionClosed => exact absurd rfl hopen
        | peerBiStream | peerUniStream | localStream => simp [takeEvent, hpop, hwanted]
      rw [htake]
      -- The event is put back in a second access.
      refine ⟨2, afterLoop last, rfl, ?_⟩
      rw [run_move hc hfirst, run_move (getElem?_set_self hlt) rfl]
      simp [System.run, set_set]

/-- A poll that nobody interrupts is `pollStream`. -/
theorem poll_alone (task : Task) (hc : s.calls[i]? = some c) (hpc : c.pc = .waiting) :
    ∃ n pc, Ends c.kind true (pollStream c.kind.wanted s.conn task).1 pc ∧
      system.run s (.poll i task :: replicate n (.move i)) =
        some ⟨(pollStream c.kind.wanted s.conn task).2, s.calls.set i { c with task, pc }⟩ := by
  have hlt : i < s.calls.length := (List.getElem?_eq_some_iff.mp hc).1
  have hpoll (n : Nat) : system.run s (.poll i task :: replicate n (.move i)) =
      system.run ⟨s.conn, s.calls.set i { c with task, pc := .check false }⟩
        (replicate n (.move i)) := by
    simp [System.run, system, step, hc, hpc]
  obtain ⟨n, pc, hends, hrun⟩ := loop_alone (i := i) (c := { c with task, pc := .check false })
    (s := ⟨s.conn, s.calls.set i { c with task, pc := .check false }⟩)
    (getElem?_set_self hlt) rfl
  rcases htake : takeEvent c.kind.wanted s.conn.evtQueue with ⟨_ | _, evtQueue⟩
  · -- The first loop is left, the task registered, and the second loop entered.
    have hleft : pc = .register := by simpa [Ends, htake, afterLoop] using hends
    have hfirst : system.run ⟨s.conn, s.calls.set i { c with task, pc := .check false }⟩
        (replicate (n + 1) (.move i)) =
          some ⟨⟨evtQueue, some task⟩, s.calls.set i { c with task, pc := .check true }⟩ := by
      rw [replicate_succ', System.run_append hrun, hleft, htake]
      simp [System.run, system, step, access, hlt]
    obtain ⟨m, pc', hends', hrun'⟩ := loop_alone (i := i) (c := { c with task, pc := .check true })
      (s := ⟨⟨evtQueue, some task⟩, s.calls.set i { c with task, pc := .check true }⟩)
      (getElem?_set_self hlt) rfl
    refine ⟨n + 1 + m, pc', by simpa [pollStream, htake] using hends', ?_⟩
    rw [hpoll, replicate_add, System.run_append hfirst, hrun']
    simp [pollStream, htake]
  · refine ⟨n, pc, by simpa [pollStream, htake, Ends] using hends, ?_⟩
    rw [hpoll, hrun]
    simp [pollStream, htake]

def biStream : ConnEvent :=
  .peerBiStream ⟨.client, .bi, 0⟩ 2

def uniStream (index : Nat) : ConnEvent :=
  .peerUniStream ⟨.client, .uni, index⟩ index

def foreignFirst : ConnState :=
  ⟨⟨evtQueueCap, [uniStream 0, biStream], by decide⟩, none⟩

theorem poll_alone_foreignFirst :
    (∃ n pc, Ends .acceptBi true (pollStream peerBi foreignFirst 7).1 pc ∧
      system.run ⟨foreignFirst, [⟨.acceptBi, 0, .waiting⟩]⟩
          (.poll 0 7 :: replicate n (.move 0)) =
        some ⟨(pollStream peerBi foreignFirst 7).2, [⟨.acceptBi, 7, pc⟩]⟩) ∧
    (pollStream peerBi foreignFirst 7).1 = some (some (⟨.client, .bi, 0⟩, 2)) :=
  ⟨poll_alone (s := ⟨foreignFirst, [⟨.acceptBi, 0, .waiting⟩]⟩) (i := 0) 7 rfl rfl, rfl⟩

end Alone

/-- The event that a poll has popped and not pushed back yet. -/
def Call.held (c : Call) : List ConnEvent :=
  match c.pc with
  | .putBack event _ => [event]
  | _ => []

def Call.returned (c : Call) : List ConnEvent :=
  match c.pc with
  | .finished event => [event]
  | _ => []

def State.held (s : State) : List ConnEvent :=
  s.calls.flatMap Call.held

def State.returned (s : State) : List ConnEvent :=
  s.calls.flatMap Call.returned

/-- A poll: the queue when it begins, whether nobody else comes to the queue while it runs, and
the queue at its last check. -/
structure Poll where
  start : List ConnEvent
  alone : Bool
  checked : List ConnEvent

/-- The events that the engine pushed, the latest poll of each call, and those polls that
returned `Pending`. -/
structure History where
  pushed : List ConnEvent
  polls : Nat → Poll
  pending : List (Kind × Poll)

variable {h : History}

def History.empty : History :=
  ⟨[], fun _ => ⟨[], false, []⟩, []⟩

def History.disturbed (h : History) (i : Nat) : Poll :=
  { h.polls i with alone := false }

def Poll.observe (p : Poll) (queue : List ConnEvent) (c : Call) : Poll :=
  if c.pc = .check true then { p with checked := queue } else p

def observeEvents (s : State) (a : Label) (h : History) : History :=
  match a with
  | .push event => { h with pushed := h.pushed ++ [event], polls := h.disturbed }
  | .poll i _ => { h with polls := update h.polls i ⟨s.conn.evtQueue.items, true, []⟩ }
  | .move i =>
    match s.calls[i]? with
    | none => h
    | some c =>
      let poll := (h.polls i).observe s.conn.evtQueue.items c
      { h with
        polls := update h.disturbed i poll
        -- The call waits again.
        pending :=
          if (State.access s.conn c).any (·.2 == .waiting) then h.pending ++ [(c.kind, poll)]
          else h.pending }
  | _ => h

def history : System (State × History) Label :=
  system.observed .empty observeEvents

/-- What the call takes is among the first two events when the poll begins, if there is any. -/
def Poll.InReach (p : Poll) (kind : Kind) : Prop :=
  (∃ event ∈ p.start.take 2, kind.takes event = true) ∨
    ∀ event ∈ p.start, kind.takes event = false

/-- A poll that was alone is pending with nothing for it at its last check exactly if what it
takes was in reach. -/
def Checked (s : State × History) : Prop :=
  ∀ kind p, (kind, p) ∈ s.2.pending → p.alone = true →
    ((∀ event ∈ p.checked, kind.takes event = false) ↔ p.InReach kind)

/-- Each event is queued, in the hands of a poll or returned by one call. -/
def Conserved (s : State × History) : Prop :=
  s.2.pushed.Perm (s.1.conn.evtQueue.items ++ s.1.held ++ s.1.returned)

/-- The engine finds a place in the queue, counting those of the events that polls are
about to push back. -/
def Orderly (s : State × History) : Label → Prop
  | .push _ => s.1.conn.evtQueue.items.length + s.1.held.length < evtQueueCap
  | _ => True

section Pending

structure Poll.Overlooks (p : Poll) (kind : Kind) : Prop where
  front : ∀ event ∈ p.start.take 2, kind.takes event = false
  perm : p.checked.Perm p.start

/-- What is in the queue when a poll that is alone stands at `pc`: it turns the queue by one
event before it looks again. -/
def Poll.Follows (p : Poll) (kind : Kind) (q : ArrayQueue ConnEvent) : Pc → Prop
  | .check false => q.items = p.start
  | .putBack event false => p.start = event :: q.items ∧ q.items.length < q.capacity ∧
      kind.takes event = false
  | .register | .check true => q.items = p.start.rotate 1 ∧
      ∀ event ∈ p.start.head?, kind.takes event = false
  | .putBack _ true => p.Overlooks kind
  | .waiting | .finished _ => True

variable {p : Poll} {kind : Kind}

theorem Poll.Overlooks.checked_iff (hp : p.Overlooks kind) :
    (∀ event ∈ p.checked, kind.takes event = false) ↔ p.InReach kind := by
  constructor
  · intro hnone
    exact .inr fun event hevent => hnone event (hp.perm.mem_iff.mpr hevent)
  · rintro (⟨event, hevent, htakes⟩ | hnone)
    · cases htakes.symm.trans (hp.front event hevent)
    · exact fun event hevent => hnone event (hp.perm.mem_iff.mp hevent)

/-- The two loops look at the first two events. -/
theorem overlooks_of_turned {event : ConnEvent} {rest : List ConnEvent}
    (hturned : event :: rest = p.start.rotate 1)
    (hhead : ∀ event ∈ p.start.head?, kind.takes event = false)
    (hevent : kind.takes event = false) : { p with checked := event :: rest }.Overlooks kind := by
  refine ⟨?_, by rw [hturned]; exact rotate_perm _ _⟩
  obtain ⟨start, _, _⟩ := p
  rcases start with _ | ⟨first, _ | ⟨second, others⟩⟩
  · simp
  · simpa using hhead
  · obtain rfl : event = second := by simpa using congrArg head? hturned
    simpa using ⟨hhead first rfl, hevent⟩

theorem Poll.Follows.access {conn conn' : ConnState} {c : Call} {pc : Pc}
    (hp : p.Follows c.kind conn.evtQueue c.pc) (h : State.access conn c = some (conn', pc)) :
    (p.observe conn.evtQueue.items c).Follows c.kind conn'.evtQueue pc ∧
      (pc = .waiting → (p.observe conn.evtQueue.items c).Overlooks c.kind) := by
  obtain ⟨kind, task, cpc⟩ := c
  cases cpc with
  | waiting | finished => simp [State.access] at h
  | register =>
    cases h
    exact ⟨hp, nofun⟩
  | putBack event last =>
    cases h
    cases last with
    | false =>
      obtain ⟨hstart, hroom, hevent⟩ := hp
      obtain ⟨q, hq, hitems, -⟩ := ArrayQueue.push_of_room hroom event
      refine ⟨⟨?_, ?_⟩, nofun⟩
      · simp [hq, hitems, Poll.observe, hstart]
      · simpa [Poll.observe, hstart] using hevent
    | true => exact ⟨trivial, fun _ => hp⟩
  | check last =>
    rcases hpop : conn.evtQueue.pop with _ | ⟨event, q⟩
    · have hempty := ArrayQueue.pop_eq_none hpop
      simp only [State.access, hpop] at h
      cases h
      cases last with
      | false =>
        have hstart : p.start = [] := hp.symm.trans hempty
        exact ⟨⟨by simp [Poll.observe, hempty, hstart], by simp [Poll.observe, hstart]⟩, nofun⟩
      | true =>
        have hstart : p.start = [] := rotate_eq_nil_iff.mp (hp.1.symm.trans hempty)
        exact ⟨trivial, fun _ => ⟨by simp [Poll.observe, hstart], by
          simp [Poll.observe, hstart, hempty]⟩⟩
    · obtain ⟨hcapacity, hitems⟩ := ArrayQueue.pop_eq_some hpop
      simp only [State.access, hpop] at h
      cases h
      split_ifs with htakes
      · exact ⟨trivial, nofun⟩
      · have hevent := eq_false_of_ne_true htakes
        cases last with
        | false =>
          have hlt : q.items.length < q.capacity := by
            have hle := conn.evtQueue.length_le
            rw [hitems, ← hcapacity] at hle
            exact hle
          exact ⟨⟨hp.symm.trans hitems, hlt, hevent⟩, nofun⟩
        | true =>
          have hturned := overlooks_of_turned (hitems.symm.trans hp.1) hp.2 hevent
          rw [← hitems] at hturned
          exact ⟨hturned, nofun⟩

theorem step_move (hstep : s.step (.move i) = some s') : ∃ c conn pc,
    s.calls[i]? = some c ∧ i < s.calls.length ∧ State.access s.conn c = some (conn, pc) ∧
      s' = ⟨conn, s.calls.set i { c with pc }⟩ := by
  simp only [State.step] at hstep
  rcases hc : s.calls[i]? with _ | c
  · simp [hc] at hstep
  · rw [hc] at hstep
    obtain ⟨⟨conn, pc⟩, haccess, rfl⟩ := map_eq_some_iff.mp hstep
    exact ⟨c, conn, pc, rfl, (List.getElem?_eq_some_iff.mp hc).1, haccess, rfl⟩

theorem step_poll {task : Task} (hstep : s.step (.poll i task) = some s') : ∃ c,
    s.calls[i]? = some c ∧ i < s.calls.length ∧ c.pc = .waiting ∧
      s' = { s with calls := s.calls.set i { c with task, pc := .check false } } := by
  simp only [State.step] at hstep
  rcases hc : s.calls[i]? with _ | c
  · simp [hc] at hstep
  · simp only [hc, ite_none_right_eq_some, some.injEq] at hstep
    exact ⟨c, rfl, (List.getElem?_eq_some_iff.mp hc).1, hstep.1, hstep.2.symm⟩

structure Watched (s : State × History) : Prop where
  running : ∀ i c, s.1.calls[i]? = some c → (s.2.polls i).alone = true →
    (s.2.polls i).Follows c.kind s.1.conn.evtQueue c.pc
  pending : ∀ kind p, (kind, p) ∈ s.2.pending → p.alone = true → p.Overlooks kind

theorem Watched.move (hs : Watched (s, h)) (hstep : s.step (.move i) = some s') :
    Watched (s', observeEvents s (.move i) h) := by
  obtain ⟨c, conn, pc, hc, hlt, haccess, rfl⟩ := step_move hstep
  have halone : ((h.polls i).observe s.conn.evtQueue.items c).alone = (h.polls i).alone := by
    unfold Poll.observe
    split_ifs <;> rfl
  have hfollows : (h.polls i).alone = true → _ := fun hi => (hs.running i c hc hi).access haccess
  simp only [observeEvents, hc, haccess, any_some, beq_iff_eq]
  constructor
  · intro j d hd hj
    rcases eq_or_ne j i with rfl | hne
    · rw [getElem?_set_self hlt] at hd
      cases hd
      simp only [update_self] at hj ⊢
      exact (hfollows (halone ▸ hj)).1
    · simp only [update_of_ne hne] at hj
      cases hj
  · intro kind p hp hp'
    split_ifs at hp with hwaiting
    · rcases mem_append.mp hp with hp | hp
      · exact hs.pending kind p hp hp'
      · cases mem_singleton.mp hp
        exact (hfollows (halone ▸ hp')).2 hwaiting
    · exact hs.pending kind p hp hp'

theorem Watched.step {a : Label} (hs : Watched (s, h)) (hstep : s.step a = some s') :
    Watched (s', observeEvents s a h) := by
  cases a with
  | move => exact hs.move hstep
  | push =>
    cases hstep
    refine ⟨fun j c _ hj => ?_, hs.pending⟩
    cases hj
  | wake =>
    cases hstep
    exact ⟨hs.running, hs.pending⟩
  | call =>
    cases hstep
    refine ⟨fun j c hc hj => ?_, hs.pending⟩
    rcases lt_or_ge j s.calls.length with hlt | hge
    · rw [getElem?_append_left hlt] at hc
      exact hs.running j c hc hj
    · rw [getElem?_append_right hge] at hc
      cases mem_singleton.mp (mem_of_getElem? hc)
      trivial
  | poll i =>
    obtain ⟨c, hc, hlt, -, rfl⟩ := step_poll hstep
    refine ⟨fun j d hd hj => ?_, hs.pending⟩
    simp only [observeEvents] at hj ⊢
    rcases eq_or_ne j i with rfl | hne
    · rw [getElem?_set_self hlt] at hd
      cases hd
      rw [update_self]
      rfl
    · rw [getElem?_set_ne hne.symm] at hd
      rw [update_of_ne hne] at hj ⊢
      exact hs.running j d hd hj

end Pending

open scoped List in
theorem flatMap_set_perm {α β : Type*} (f : α → List β) {l : List α} {a : α} (b : α)
    (h : l[i]? = some a) : ((l.set i b).flatMap f ++ f a).Perm (l.flatMap f ++ f b) := by
  induction l generalizing i with
  | nil => simp at h
  | cons x l ih =>
    cases i with
    | zero =>
      obtain rfl : x = a := by simpa using h
      calc f b ++ l.flatMap f ++ f x
        _ ~ l.flatMap f ++ f b ++ f x := perm_append_comm.append_right _
        _ ~ f x ++ (l.flatMap f ++ f b) := perm_append_comm
        _ = f x ++ l.flatMap f ++ f b := (append_assoc ..).symm
    | succ =>
      simp only [set_cons_succ, flatMap_cons, append_assoc]
      exact (ih (by simpa using h)).append_left _

open Call

/-- What an access does with the events: none is lost when a poll finds room for the one
it pushes back. -/
theorem access_events {conn' : ConnState} {c : Call} {pc : Pc}
    (h : State.access conn c = some (conn', pc))
    (hroom : conn.evtQueue.items.length + c.held.length ≤ conn.evtQueue.capacity) :
    conn'.evtQueue.capacity = conn.evtQueue.capacity ∧
      conn'.evtQueue.items.length + { c with pc }.held.length ≤
        conn.evtQueue.items.length + c.held.length ∧
      ∀ event, (conn'.evtQueue.items ++ { c with pc }.held ++ { c with pc }.returned).count event =
        (conn.evtQueue.items ++ c.held ++ c.returned).count event := by
  obtain ⟨kind, _, cpc⟩ := c
  cases cpc with
  | waiting => simp [State.access] at h
  | finished => simp [State.access] at h
  | register =>
    cases h
    exact ⟨rfl, le_rfl, fun _ => rfl⟩
  | check last =>
    simp only [State.access] at h
    rcases hpop : conn.evtQueue.pop with _ | ⟨event, evtQueue⟩
    · rw [hpop] at h
      cases h
      cases last <;> exact ⟨rfl, le_rfl, fun _ => rfl⟩
    · obtain ⟨hcapacity, hitems⟩ := ArrayQueue.pop_eq_some hpop
      rw [hpop] at h
      cases h
      by_cases htakes : kind.takes event = true
      · simp only [htakes, if_true, held, returned, hitems]
        refine ⟨hcapacity, by simp, ?_⟩
        simp only [append_nil, count_append, count_cons, count_nil]
        omega
      · simp only [htakes, held, returned, hitems]
        refine ⟨hcapacity, by simp, ?_⟩
        simp [count_append, count_cons]
  | putBack event last =>
    cases h
    have hlt : conn.evtQueue.items.length < conn.evtQueue.capacity := hroom
    obtain ⟨q, hq, hitems, hcapacity⟩ := ArrayQueue.push_of_room hlt event
    rw [hq, getD_some]
    refine ⟨hcapacity, ?_, ?_⟩
    · cases last <;> simp [hitems, held, afterLoop]
    · cases last <;> simp [hitems, held, returned, afterLoop]

structure Inv (s : State × History) : Prop where
  capacity : s.1.conn.evtQueue.capacity = evtQueueCap
  room : s.1.conn.evtQueue.items.length + s.1.held.length ≤ evtQueueCap
  count : ∀ event, s.2.pushed.count event =
    (s.1.conn.evtQueue.items ++ s.1.held ++ s.1.returned).count event

theorem Inv.of_calls {h' : History} (hinv : Inv (s, h)) (hpushed : h'.pushed = h.pushed)
    {calls : List Call} (hqueue : conn.evtQueue = s.conn.evtQueue)
    (hheld : (calls.flatMap held).Perm s.held)
    (hreturned : (calls.flatMap returned).Perm s.returned) : Inv (⟨conn, calls⟩, h') := by
  refine ⟨?_, ?_, ?_⟩
  · rw [hqueue]
    exact hinv.capacity
  · rw [State.held, hheld.length_eq, hqueue]
    exact hinv.room
  · intro e
    have hcount := hinv.count e
    simp only [State.held, State.returned, count_append, hqueue, hpushed] at hcount ⊢
    rw [hheld.count_eq, hreturned.count_eq]
    exact hcount

theorem Inv.push {event : ConnEvent} (hinv : Inv (s, h))
    (hroom : Orderly (s, h) (.push event)) (hstep : s.step (.push event) = some s') :
    Inv (s', observeEvents s (.push event) h) := by
  have hlt : s.conn.evtQueue.items.length + s.held.length < evtQueueCap := hroom
  have hcap : s.conn.evtQueue.capacity = evtQueueCap := hinv.capacity
  obtain ⟨q, hq, hitems, hcapacity⟩ :=
    ArrayQueue.push_of_room (q := s.conn.evtQueue) (by omega) event
  have hs' : s' = { s with conn := { s.conn with evtQueue := q } } := by
    rw [← some.inj hstep, hq]
    rfl
  rw [hs']
  refine ⟨hcapacity.trans hcap, ?_, ?_⟩
  · change q.items.length + s.held.length ≤ evtQueueCap
    rw [hitems, length_append, length_singleton]
    omega
  · intro e
    have hcount := hinv.count e
    change (h.pushed ++ [event]).count e = (q.items ++ s.held ++ s.returned).count e
    rw [hitems]
    simp only [count_append] at hcount ⊢
    omega

theorem Inv.move (hinv : Inv (s, h)) (hstep : s.step (.move i) = some s') :
    Inv (s', observeEvents s (.move i) h) := by
  obtain ⟨c, conn, pc, hc, _, haccess, rfl⟩ := step_move hstep
  have hheld := flatMap_set_perm held { c with pc } hc
  have hreturned := flatMap_set_perm returned { c with pc } hc
  have hlength := hheld.length_eq
  rw [length_append, length_append] at hlength
  have hcap : s.conn.evtQueue.capacity = evtQueueCap := hinv.capacity
  have hroom : s.conn.evtQueue.items.length + s.held.length ≤ evtQueueCap := hinv.room
  have hle : c.held.length ≤ s.held.length := by
    have hwaiting := (flatMap_set_perm held { c with pc := .waiting } hc).length_eq
    rw [length_append, length_append] at hwaiting
    exact Nat.le_of_add_left_le (le_of_eq hwaiting)
  obtain ⟨hcapacity, _, hcount⟩ := access_events haccess (by omega)
  refine ⟨hcapacity.trans hcap, ?_, ?_⟩
  · change conn.evtQueue.items.length + ((s.calls.set i { c with pc }).flatMap held).length ≤ _
    unfold State.held at hroom hle
    omega
  · intro e
    have hbefore := hinv.count e
    have haccess := hcount e
    have hheld := hheld.count_eq e
    have hreturned := hreturned.count_eq e
    have hpushed : (observeEvents s (.move i) h).pushed = h.pushed := by
      simp only [observeEvents, hc]
    simp only [hpushed, State.held, State.returned, count_append] at *
    omega

theorem Inv.step {a : Label} (hinv : Inv (s, h))
    (horderly : Orderly (s, h) a) (hstep : s.step a = some s') : Inv (s', observeEvents s a h) := by
  cases a with
  | push => exact hinv.push horderly hstep
  | move => exact hinv.move hstep
  | wake =>
    cases hstep
    exact hinv.of_calls rfl rfl (.refl _) (.refl _)
  | call =>
    cases hstep
    refine hinv.of_calls rfl rfl ?_ ?_
    · simp [State.held, held]
    · simp [State.returned, returned]
  | poll i task =>
    obtain ⟨c, hc, _, hwaiting, rfl⟩ := step_poll hstep
    have hsame {f : Call → List ConnEvent} (hf : f { c with task, pc := .check false } = f c) :
        ((s.calls.set i { c with task, pc := .check false }).flatMap f).Perm
          (s.calls.flatMap f) := by
      have hperm := flatMap_set_perm f { c with task, pc := .check false } hc
      rw [hf] at hperm
      exact (perm_append_right_iff _).mp hperm
    exact hinv.of_calls (rfl : (observeEvents s (.poll i task) h).pushed = h.pushed) rfl
      (hsame (by simp [held, hwaiting])) (hsame (by simp [returned, hwaiting]))

/-- Each poll that is alone and finds what it takes within reach is pending only if there was
nothing for it at its last check, and no event that found a place is lost. -/
theorem delivered_of_orderly (s : State × History) : (history.Reachable s → Checked s) ∧
    (history.ReachableVia Orderly s → Conserved s) := by
  constructor
  · intro hs kind p hp halone
    have hwatched : Watched s := by
      refine hs.observed_invariant ?_ fun _ _ _ _ hs _ hstep => hs.step hstep
      rintro s rfl
      exact ⟨fun i c hc => (nomatch hc), fun kind p hp => (nomatch hp)⟩
    exact (hwatched.pending kind p hp halone).checked_iff
  · intro hs
    have hinv : Inv s := by
      refine hs.observed_invariant ?_ fun _ _ _ _ hinv horderly hstep => hinv.step horderly hstep
      rintro s rfl
      exact ⟨rfl, Nat.zero_le _, fun _ => rfl⟩
    exact perm_iff_count.mpr hinv.count

instance (s : State × History) (a : Label) : Decidable (Orderly s a) := by
  cases a <;> unfold Orderly <;> infer_instance

theorem initial_start : history.initial (.initial, .empty) :=
  ⟨rfl, rfl⟩

def pollOnce : List Label :=
  [.poll 0 0, .move 0, .move 0, .move 0, .move 0, .move 0]

def behindOne : List Label :=
  [.call .acceptBi, .push (uniStream 0), .push biStream, .poll 0 0, .move 0, .move 0, .move 0,
    .move 0]

theorem behindOne_delivered :
    (∃ s, history.Reachable s ∧ ∃ p, s.2.pending = [(.acceptBi, p)] ∧
      p.checked = [uniStream 1, uniStream 0] ∧
      ∀ event ∈ p.checked, (.acceptBi : Kind).takes event = false) ∧
    ∃ s, history.ReachableVia Orderly s ∧ s.1.returned = [biStream] ∧ Conserved s := by
  constructor
  · have hinitial : history.Reachable (.initial, .empty) := .initial initial_start
    obtain ⟨s, hs, p, hpending, halone, hchecked, hreach⟩ :=
      hinitial.exists_of_run (P := fun s => ∃ p, s.2.pending = [(.acceptBi, p)] ∧
          p.alone = true ∧ p.checked = [uniStream 1, uniStream 0] ∧ p.InReach .acceptBi)
        ([.call .acceptBi, .push (uniStream 0), .push (uniStream 1)] ++ pollOnce)
        ⟨_, rfl, _, rfl, rfl, rfl, .inr (by decide)⟩
    have hmem : (.acceptBi, p) ∈ s.2.pending := hpending ▸ mem_singleton_self _
    exact ⟨s, hs, p, hpending, hchecked,
      ((delivered_of_orderly s).1 hs .acceptBi p hmem halone).mpr hreach⟩
  · refine System.ReachableVia.exists_of_runChecked
      (fun s a => (of_decide_eq_true : decide (Orderly s a) = true → _)) (.initial initial_start)
      behindOne ?_
    exact ⟨_, rfl, fun hreach => ⟨rfl, (delivered_of_orderly _).2 hreach⟩⟩

/-- Behind two such streams it is not found, though the poll is alone, and an event that finds
the queue full is lost. -/
theorem behindTwo_pending_and_full_lost :
    (∃ s, history.Reachable s ∧ s.2.pending = [(.acceptBi,
        ⟨[uniStream 0, uniStream 1, biStream], true, [uniStream 1, biStream, uniStream 0]⟩)] ∧
      (.acceptBi : Kind).takes biStream = true) ∧
    ∃ s, history.Reachable s ∧ biStream ∈ s.2.pushed ∧ s.1.held = [] ∧ s.1.returned = [] ∧
      biStream ∉ s.1.conn.evtQueue.items := by
  have hinitial : history.Reachable (.initial, .empty) := .initial initial_start
  constructor
  · refine hinitial.exists_of_run
      ([.call .acceptBi, .push (uniStream 0), .push (uniStream 1), .push biStream] ++ pollOnce) ?_
    exact ⟨_, rfl, rfl, rfl⟩
  · have hlost : (history.run (.initial, .empty)
        (replicate evtQueueCap (.push (uniStream 0)) ++ [.push biStream])).any (fun s =>
          s.2.pushed.contains biStream && s.1.held.isEmpty && s.1.returned.isEmpty &&
            !s.1.conn.evtQueue.items.contains biStream) = true := by
      decide +kernel
    obtain ⟨s, hrun, hfacts⟩ := (any_eq_true _ _).mp hlost
    simp only [Bool.and_eq_true, List.isEmpty_iff, Bool.not_eq_true',
      contains_eq_mem, decide_eq_true_eq, decide_eq_false_iff_not] at hfacts
    obtain ⟨⟨⟨hpushed, hheld⟩, hreturned⟩, hlost⟩ := hfacts
    exact ⟨s, hinitial.of_run hrun, hpushed, hheld, hreturned, hlost⟩

end Quac.PollBi
