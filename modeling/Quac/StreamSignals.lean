import Quac.RecvSteps

/-!
What makes `StreamsState::poll` report something, and which operations leave that
alone.
-/

namespace Quac.StreamSignals

open Identifiers RecvHalf RecvSteps Relation StreamAccess Streams Streams.StreamsState

/-- Where events come from. -/
structure SameSignals (s s' : StreamsState) : Prop where
  events : s'.events = s.events
  opened : s'.opened = s.opened
  blocked : s'.connectionBlocked = s.connectionBlocked

structure SameCounts (s s' : StreamsState) : Prop extends SameSignals s s' where
  side : s'.side = s.side
  next : s'.next = s.next
  nextRemote : s'.nextRemote = s.nextRemote
  nextReportedRemote : s'.nextReportedRemote = s.nextReportedRemote

variable {s : StreamsState}

theorem SameSignals.acceptStream (dir : Dir) :
    SameSignals s (acceptStream s dir).2 := by
  unfold StreamAccess.acceptStream
  split_ifs <;> exact ⟨rfl, rfl, rfl⟩

namespace SameCounts

variable {s s' s'' : StreamsState}

theorem refl : SameCounts s s :=
  ⟨⟨rfl, rfl, rfl⟩, rfl, rfl, rfl, rfl⟩

theorem trans (h : SameCounts s s') (h' : SameCounts s' s'') : SameCounts s s'' :=
  ⟨⟨h'.events.trans h.events, h'.opened.trans h.opened, h'.blocked.trans h.blocked⟩,
    h'.side.trans h.side, h'.next.trans h.next, h'.nextRemote.trans h.nextRemote,
    h'.nextReportedRemote.trans h.nextReportedRemote⟩

theorem insert (remote : Bool) (id : StreamId) : SameCounts s (s.insert remote id) := by
  unfold StreamsState.insert
  dsimp only
  split_ifs <;> exact ⟨⟨rfl, rfl, rfl⟩, rfl, rfl, rfl, rfl⟩

theorem of_admits (h : ReflTransGen AdmitStep s s') : SameCounts s s' := by
  induction h with
  | refl => exact refl
  | tail _ hstep ih =>
    refine ih.trans ?_
    cases hstep with
    | inserted id => exact insert true id
    | counted => exact ⟨⟨rfl, rfl, rfl⟩, rfl, rfl, rfl, rfl⟩

theorem setRecv (id : StreamId) (recv : Recv) : SameCounts s (s.setRecv id recv) :=
  ⟨⟨rfl, rfl, rfl⟩, rfl, rfl, rfl, rfl⟩

theorem removeRecv (id : StreamId) : SameCounts s (s.removeRecv id) :=
  ⟨⟨rfl, rfl, rfl⟩, rfl, rfl, rfl, rfl⟩

end SameCounts

variable {s' : StreamsState}

theorem SameCounts.of_absorbs (h : Absorbs False s s') : SameCounts s s' := by
  induction h with
  | refl => exact .refl
  | tail _ hstep ih =>
    refine ih.trans ?_
    cases hstep with
    | setRecv id recv => exact .setRecv id recv
    | removeRecv id => exact .removeRecv id
    | freed id recv =>
      refine .trans ?_ (.of_admits (admits_streamFreed _ id .recv))
      exact ⟨⟨rfl, rfl, rfl⟩, rfl, rfl, rfl, rfl⟩
    | received => exact ⟨⟨rfl, rfl, rfl⟩, rfl, rfl, rfl, rfl⟩
    | credited =>
      unfold addReadCredits
      dsimp only
      split_ifs <;> exact ⟨⟨rfl, rfl, rfl⟩, rfl, rfl, rfl, rfl⟩
    | announced h => exact h.elim

theorem SameSignals.openStream (closed : Bool) (dir : Dir) :
    SameSignals s (openStream s closed dir).2 := by
  unfold StreamAccess.openStream
  split_ifs
  iterate 2 exact ⟨rfl, rfl, rfl⟩
  · have h : SameCounts { s with next := Function.update s.next dir (s.next dir + 1) }
        (insert { s with next := Function.update s.next dir (s.next dir + 1) } false
          ⟨s.side, dir, s.next dir⟩) := .insert false _
    exact { h with }

/-- How often `poll` can report something at most. -/
def signalCount (s : StreamsState) : Nat :=
  (if s.opened .bi then 1 else 0) + (if s.opened .uni then 1 else 0) +
    s.connectionBlocked.length + s.events.length

theorem SameSignals.signalCount_eq (h : SameSignals s s') :
    signalCount s' = signalCount s := by
  rw [signalCount, signalCount, h.events, h.opened, h.blocked]

/-- Each event that `poll` reports is one signal less. -/
theorem poll_signalCount (s : StreamsState) :
    signalCount s.poll.2 + s.poll.1.toList.length ≤ signalCount s := by
  have hpoll : Polls s s.poll.1 s.poll.2 := poll_spec rfl
  generalize s.poll.1 = event, s.poll.2 = s' at hpoll ⊢
  cases hpoll with
  | opened h =>
    rename_i dir
    cases dir <;> simp only [signalCount, h, Function.update, reduceCtorEq, dite_true, dite_false,
      if_true, Bool.false_eq_true, if_false, Option.toList_some, List.length_singleton] <;> omega
  | writable _ h =>
    simp only [signalCount, Option.toList_some, List.length_cons, List.length_nil]
    omega
  | event hevent _ h =>
    rw [← hevent]
    rcases hs : s.events with _ | ⟨_, _⟩ <;> simp [signalCount, hs] <;> omega

theorem poll_counts (s : StreamsState) :
    s.poll.2.side = s.side ∧ s.poll.2.next = s.next ∧ s.poll.2.nextRemote = s.nextRemote ∧
      s.poll.2.nextReportedRemote = s.nextReportedRemote := by
  have hpoll : Polls s s.poll.1 s.poll.2 := poll_spec rfl
  generalize s.poll.1 = event, s.poll.2 = s' at hpoll ⊢
  cases hpoll <;> exact ⟨rfl, rfl, rfl, rfl⟩

/-- The sending side at work: nothing changes for the streams' receiving halves, nor
for what was reported about them. -/
structure SameReceive (s s' : StreamsState) : Prop where
  side : s'.side = s.side
  recv : s'.recv = s.recv
  freeRecv : s'.freeRecv = s.freeRecv
  window : s'.streamReceiveWindow = s.streamReceiveWindow
  next : s'.next = s.next
  nextRemote : s'.nextRemote = s.nextRemote
  nextReportedRemote : s'.nextReportedRemote = s.nextReportedRemote
  opened : s'.opened = s.opened
  events : s'.events = s.events

theorem SameReceive.trans {s'' : StreamsState} (h : SameReceive s s')
    (h' : SameReceive s' s'') : SameReceive s s'' :=
  ⟨h'.side.trans h.side, h'.recv.trans h.recv, h'.freeRecv.trans h.freeRecv,
    h'.window.trans h.window, h'.next.trans h.next, h'.nextRemote.trans h.nextRemote,
    h'.nextReportedRemote.trans h.nextReportedRemote, h'.opened.trans h.opened,
    h'.events.trans h.events⟩

theorem sameReceive_writeStream (s : StreamsState) (closed : Bool) (id : StreamId) (data : Bytes) :
    SameReceive s (writeStream s closed id data).2 := by
  unfold writeStream
  dsimp only
  repeat' split
  all_goals exact ⟨rfl, rfl, rfl, rfl, rfl, rfl, rfl, rfl, rfl⟩

theorem sameReceive_finishStream (s : StreamsState) (id : StreamId) :
    SameReceive s (finishStream s id).2 := by
  unfold finishStream
  repeat' split
  all_goals exact ⟨rfl, rfl, rfl, rfl, rfl, rfl, rfl, rfl, rfl⟩

theorem sameReceive_resetStream (s : StreamsState) (pending : Retransmits) (id : StreamId)
    (code : Nat) : SameReceive s (resetStream s pending id code).2.1 := by
  unfold resetStream
  repeat' split
  all_goals exact ⟨rfl, rfl, rfl, rfl, rfl, rfl, rfl, rfl, rfl⟩

end Quac.StreamSignals
