import Quac.Lib.Registry
import Quac.StreamQueue
import Quac.StreamSession

/-!
Every stream that has something to send is queued.  Each operation looks at what the
stream had to send before it and queues the stream where that was nothing; only when
early data is rejected the queue is emptied although streams of the peer stay.
-/

namespace Quac.StreamSchedule

open EarlyData Identifiers Lib.Transition SendData SendHalf SendPath SendSteps StreamAccess
open StreamAccounts
open StreamParty hiding State step system
open StreamQueue StreamSession StreamTransmit Streams TransmitShape

def Waiting (half : Send) : Prop :=
  half.isReset = false ∧ half.isPending = true

def Scheduled (send : StreamId → Option (Option Send)) (queue : PendingStreamsQueue) : Prop :=
  ∀ id half, send id = some (some half) → Waiting half → id ∈ queued queue

section Queue

variable {q q' : PendingStreamsQueue} {id j : StreamId} {priority : Int}

theorem mem_queued_reinsertPending : id ∈ queued (q.reinsertPending id priority) :=
  List.mem_map_of_mem (List.mem_append_left _ List.mem_cons_self)

theorem queued_of_pop {p : PendingStream} (h : q.pop = some (p, q')) (hj : j ∈ queued q) :
    j = p.id ∨ j ∈ queued q' := by
  rw [queued_eq_cons_of_pop h] at hj
  exact List.mem_cons.mp hj

end Queue

section Halves

variable {s s' : StreamsState} {send : StreamId → Option (Option Send)} {id : StreamId}
  {half half' : Send} {q q' : PendingStreamsQueue}

theorem not_waiting_new (maxData : Nat) : ¬ Waiting (.new maxData) := by
  rintro ⟨-, hpending⟩
  cases hpending

theorem send_of_waiting (h : s.getSend id = some half) (hw : Waiting half) :
    s.send id = some (some half) := by
  obtain ⟨slot, hslot, heq⟩ := Option.map_eq_some_iff.mp h
  rcases slot with _ | _
  · subst heq
    exact absurd hw (not_waiting_new _)
  · subst heq
    exact hslot

theorem Scheduled.update (h : Scheduled send q) (hwaits : Waiting half → id ∈ queued q) :
    Scheduled (Function.update send id (some (some half))) q := by
  intro j half' hj hw
  rcases eq_or_ne j id with rfl | hne
  · rw [Function.update_self] at hj
    cases hj
    exact hwaits hw
  · rw [Function.update_of_ne hne] at hj
    exact h j half' hj hw

theorem Scheduled.remove (h : Scheduled send q) {slot : Option (Option Send)}
    (hslot : slot = none ∨ slot = some none) : Scheduled (Function.update send id slot) q := by
  intro j half' hj hw
  rcases eq_or_ne j id with rfl | hne
  · rw [Function.update_self] at hj
    rcases hslot with rfl | rfl <;> cases hj
  · rw [Function.update_of_ne hne] at hj
    exact h j half' hj hw

theorem Scheduled.calm (h : Scheduled s.send s.pending) (hhalf : s.getSend id = some half)
    (half' : Send) (hwaits : Waiting half' → Waiting half) :
    Scheduled (Function.update s.send id (some (some half'))) s.pending :=
  h.update fun hw => h id half (send_of_waiting hhalf (hwaits hw)) (hwaits hw)

theorem Kept.scheduled (hkept : Kept s s') (h : Scheduled s.send s.pending) :
    Scheduled s'.send s'.pending := by
  intro id half hid hw
  rw [hkept.pending]
  rcases hkept.send id with heq | ⟨-, hnew⟩
  · exact h id half (heq.symm.trans hid) hw
  · cases hnew.symm.trans hid

end Halves

section Operations

variable {s s' : StreamsState} {id : StreamId}

theorem waiting_of_calm {scope : Scope} {half half' : Send}
    (h : HalfStep scope id half false half') (hw : Waiting half') : Waiting half := by
  cases h with
  | stopped =>
    unfold Send.tryStop at hw
    split at hw <;> exact hw
  | raised =>
    unfold Send.increaseMaxData at hw
    split_ifs at hw <;> exact hw
  | reset =>
    have hstate : half.reset.isReset = true := by
      unfold Send.reset Send.isReset
      rcases hs : half.state with _ | _ | _ <;> simp [hs]
    cases hstate.symm.trans hw.1
  | _ => exact hw

theorem isReset_of_filled {scope : Scope} {half half' : Send}
    (h : HalfStep scope id half true half') (hreset : half'.isReset = false) :
    half.isReset = false := by
  cases h with
  | written _ hwrite => simp [Send.isReset, (Send.write_eq_ok hwrite).1]
  | finished _ hfinish =>
    unfold Send.finish at hfinish
    split at hfinish
    · cases hfinish
    · split_ifs at hfinish with hstate
      simp [Send.isReset, hstate]
  | lost | rewound => exact hreset

theorem scheduled_sendStep {scope : Scope} (h : Scheduled s.send s.pending)
    (hstep : SendStep scope s s') : Scheduled s'.send s'.pending := by
  cases hstep with
  | calm hget hhalf => exact h.calm hget _ (waiting_of_calm hhalf)
  | filled hget hhalf =>
    dsimp only
    split_ifs with hpending
    · refine h.update fun hw => ?_
      have hwaiting := And.intro (isReset_of_filled hhalf hw.1) hpending
      exact h _ _ (send_of_waiting hget hwaiting) hwaiting
    · refine Scheduled.update (fun j half hj hw => ?_) fun _ =>
        mem_queued_pushPending.mpr (.inl rfl)
      exact mem_queued_pushPending.mpr (.inr (h j half hj hw))
  | skipped _ hpop hreset =>
    -- Unless the stream is one to take a frame from, it does not wait.
    intro j half hj hw
    refine (queued_of_pop hpop (h j half hj hw)).resolve_left ?_
    rintro rfl
    cases (hreset half hj).symm.trans hw.1
  | @framed _ p _ _ _ hpop =>
    intro j half'' hj hw
    rcases eq_or_ne j p.id with rfl | hne
    · simp only [StreamsState.setSend, Function.update_self, Option.some.injEq] at hj
      subst hj
      -- The frame left something to send, so the stream was queued again.
      simp only [StreamsState.setSend, requeued, if_pos hw.2]
      split_ifs
      · exact mem_queued_pushPending.mpr (.inl rfl)
      · exact mem_queued_reinsertPending
    · simp only [StreamsState.setSend, Function.update_of_ne hne] at hj
      have hqueued := (queued_of_pop hpop (h j half'' hj hw)).resolve_left hne
      unfold requeued
      split_ifs
      · exact mem_queued_pushPending.mpr (.inr hqueued)
      · obtain ⟨p, hp, rfl⟩ := List.mem_map.mp hqueued
        rw [(pop_eq_some hpop).1] at hp
        exact List.mem_map_of_mem (List.mem_append_right _ hp)
      · exact hqueued
  | announced id => exact Kept.scheduled (kept_onStreamFrame s false id) h
  | listed | counted | event => exact h

theorem scheduled_steps (h : Scheduled s.send s.pending) (hsteps : Steps .any s s') :
    Scheduled s'.send s'.pending := by
  induction hsteps with
  | refl => exact h
  | tail _ hstep ih => exact scheduled_sendStep ih hstep

theorem hasUnsentData_ack (b : SendBuffer) (start stop : Nat) :
    (b.ack start stop).hasUnsentData = b.hasUnsentData := by
  have hdiscard : ∀ (fuel : Nat) (b : SendBuffer),
      (b.discardAcked fuel).hasUnsentData = b.hasUnsentData := by
    intro fuel
    induction fuel with
    | zero => exact fun _ => rfl
    | succ _ ih =>
      intro b
      unfold SendBuffer.discardAcked
      split
      · split
        · rfl
        · rw [ih]
          rfl
      · rfl
  unfold SendBuffer.ack
  rw [hdiscard]
  rfl

theorem scheduled_removeSend (h : Scheduled s.send s.pending) (id : StreamId) :
    Scheduled ((s.removeSend id).streamFreed id .send).send
      ((s.removeSend id).streamFreed id .send).pending := by
  obtain ⟨t, hkept, heq⟩ := streamFreed_send (s.removeSend id) id
  rw [heq]
  have hremoved : Scheduled (s.removeSend id).send (s.removeSend id).pending := h.remove (.inl rfl)
  have hfreed : Scheduled t.send t.pending := Kept.scheduled hkept hremoved
  exact hfreed

theorem scheduled_acks (h : Scheduled s.send s.pending) (hacks : Acks s s') :
    Scheduled s'.send s'.pending := by
  cases hacks with
  | refl => exact h
  | @acked half _ hsend =>
    refine h.calm (getSend_of_send hsend) _ fun hw => ?_
    unfold Waiting Send.ack Send.isReset Send.isPending at *
    rcases hstate : half.state with _ | _ | _ <;>
      simp only [hstate, hasUnsentData_ack] at hw ⊢ <;> exact ⟨hw.1, hw.2⟩
  | freed id unackedData => exact scheduled_removeSend (s := { s with unackedData }) h id
  | finished id unackedData ht =>
    have hfreed := scheduled_removeSend (s := { s with unackedData }) h id
    rw [← ht] at hfreed
    exact hfreed

theorem scheduled_setParams (h : Scheduled s.send s.pending) (params : StreamsState.PeerLimits) :
    Scheduled (s.setParams params).send (s.setParams params).pending := by
  intro j half hj hw
  rcases setParams_send s params j with heq | ⟨-, heq⟩ <;> rw [heq] at hj
  · exact h j half hj hw
  · obtain ⟨_, hslot, hmap⟩ := Option.map_eq_some_iff.mp hj
    obtain ⟨half', rfl, rfl⟩ := Option.map_eq_some_iff.mp hmap
    exact h j half' hslot hw

end Operations

section Runs

variable {p p' : Party} {op : Operation}

/-- Early data is rejected only while no stream of the peer waits. -/
def Unbidden (p : Party) (op : Operation) : Prop :=
  op = .zeroRttRejected → ∀ id half, id.initiator ≠ p.streams.side →
    p.streams.send id = some (some half) → ¬ Waiting half

structure Inv (p : Party) : Prop where
  scheduled : Scheduled p.streams.send p.streams.pending
  seated : Seated p.streams

theorem inv_initial (h : system.initial p) : Inv p := by
  obtain ⟨side, _, _, _, _, _, rfl⟩ := h
  refine ⟨fun id half hid => ?_, seated_new side _ _ _ _ _⟩
  rw [send_new] at hid
  split_ifs at hid
  cases hid

theorem inv_step (h : Inv p) (hop : Unbidden p op) (hstep : system.step p op = some p') :
    Inv p' := by
  have heffect := step_effect hstep
  refine ⟨?_, heffect.seated h.seated⟩
  have hs := h.scheduled
  generalize p'.streams = s' at heffect ⊢
  cases heffect with
  | kept _ _ _ hkept => exact Kept.scheduled hkept hs
  | accept dir =>
    have haccepted := Kept.scheduled (kept_acceptStream p.streams dir) hs
    exact haccepted
  | openStream dir =>
    intro j half hj hw
    have hopens := opens p.streams dir
    generalize openStream p.streams false dir = r at hopens hj
    cases hopens with
    | refused => exact hs j half hj hw
    | opened =>
      rcases Lib.Registry.update_some_eq_some.mp hj with ⟨-, hnew⟩ | ⟨-, hold⟩
      · cases hnew
      · exact hs j half hold hw
  | write _ data => exact scheduled_steps hs (steps_writeStream trivial trivial _ false data)
  | finish => exact scheduled_steps hs (steps_finishStream trivial trivial)
  | reset pending _ errorCode =>
    exact scheduled_steps hs (steps_resetStream trivial pending errorCode)
  | poll =>
    obtain ⟨t, _, _, hsteps, heq⟩ := steps_poll .any trivial p.streams
    have hscheduled := scheduled_steps hs hsteps
    rw [heq]
    exact hscheduled
  | sendWindow => exact hs
  | setPriority id priority => exact scheduled_steps hs (steps_setPriority _ id priority)
  | stopSending _ id errorCode =>
    exact scheduled_steps hs (steps_receivedStopSending _ id errorCode)
  | maxData => exact hs
  | maxStreamData _ _ _ _ hreceived =>
    exact scheduled_steps hs (steps_receivedMaxStreamData trivial hreceived)
  | maxStreams _ _ _ _ hreceived =>
    unfold StreamsState.receivedMaxStreams at hreceived
    split_ifs at hreceived <;> cases hreceived <;> exact hs
  | transmit _ _ _ hkept =>
    exact scheduled_steps (Kept.scheduled hkept hs) (steps_writeStreamFrames trivial _ _ _ _)
  | ackOf => exact scheduled_acks hs (acks_receivedAckOf _ _)
  | resetAcked id => exact scheduled_acks hs (acks_resetAcked _ id)
  | retransmit => exact scheduled_steps hs (steps_retransmit trivial _ trivial)
  | setParams params => exact scheduled_setParams hs params
  | rewound =>
    exact scheduled_steps hs (steps_retransmitAllFor0rtt trivial (fun _ => trivial) _)
  | rejected _ hrejected =>
    rw [(zeroRttRejected_eq_some_iff.mp hrejected).2]
    intro id half hid hw
    simp only [rejected] at hid
    split_ifs at hid with hown
    have hside : id.initiator ≠ p.streams.side :=
      fun hside => hown (h.seated.ours id hside (by simp [hid]))
    exact absurd hw (hop rfl id half hside hid)

end Runs

/-- The assertion of `reinsert_pending` fails in the course of `write_stream_frames`. -/
def reinsertFails (maxSize : Nat) (fair : Bool) (fuel : Nat) (w : Writer) : Bool :=
  match fuel with
  | 0 => false
  | fuel + 1 =>
    if w.len + streamSizeBound < maxSize then
      match w.streams.pending.pop with
      | none => false
      | some (p, queue) =>
        let w := { w with streams := { w.streams with pending := queue } }
        match w.streams.send p.id with
        | some (some half) =>
          if half.isReset then reinsertFails maxSize fair fuel w
          else
            let w' := (writeStreamFrame maxSize fair w p.id half).2
            let pending := ((w'.streams.getSend p.id).map Send.isPending).getD false
            (pending && !fair && w.streams.pending.next.isSome) ||
              reinsertFails maxSize fair fuel w'
        | _ => reinsertFails maxSize fair fuel w
    else false

theorem reinsertFails_eq_false (maxSize : Nat) (fair : Bool) (fuel : Nat) (w : Writer) :
    reinsertFails maxSize fair fuel w = false := by
  induction fuel generalizing w with
  | zero => rfl
  | succ _ ih =>
    unfold reinsertFails
    split
    · split
      · rfl
      · rename_i p queue hpop
        dsimp only
        split
        · split_ifs
          · exact ih _
          · rw [(pop_eq_some hpop).1, ih]
            simp
        · exact ih _
    · rfl

/-- Every live stream that has something to send is queued, and a stream goes back to the
head of the queue only where that is free. -/
theorem pending_scheduled {p : Party} (hp : system.ReachableVia Unbidden p) :
    Scheduled p.streams.send p.streams.pending ∧
      ∀ maxSize fair fuel w, reinsertFails maxSize fair fuel w = false :=
  ⟨(hp.invariant (fun _ => inv_initial) fun _ _ _ => inv_step).scheduled, reinsertFails_eq_false⟩

def remembered : Operation :=
  .setParams ⟨100, 100, 100, 1, 1, 100⟩

/-- A stream that is opened and written to waits until a packet took its data. -/
theorem writtenStream_scheduled : ∃ p, system.ReachableVia Unbidden p ∧
      (∃ half, p.streams.send ⟨.client, .bi, 0⟩ = some (some half) ∧ Waiting half) ∧
      Scheduled p.streams.send p.streams.pending ∧
      ∀ maxSize fair fuel w, reinsertFails maxSize fair fuel w = false := by
  have hcheck : ∀ (p : Party) op, (op != .zeroRttRejected) = true → Unbidden p op := by
    rintro _ _ hcheck rfl
    cases hcheck
  refine System.ReachableVia.exists_of_runChecked hcheck
    (.initial (s := client) ⟨_, _, _, _, _, _, rfl⟩)
    [remembered, .call (.openStream .bi), .call (.write ⟨.client, .bi, 0⟩ (List.replicate 60 7)),
      .transmit ⟨0, 50, false, []⟩] ?_
  exact ⟨_, rfl, fun hreach => ⟨⟨_, rfl, rfl, rfl⟩, pending_scheduled hreach⟩⟩

/-- Data written to a stream that the peer may open is not queued any more once early data
is rejected. -/
theorem rejected_unscheduled :
    ∃ p, system.Reachable p ∧ ∃ half, p.streams.send ⟨.server, .bi, 0⟩ = some (some half) ∧
      Waiting half ∧ queued p.streams.pending = [] := by
  have hinitial : system.Reachable client := .initial ⟨_, _, _, _, _, _, rfl⟩
  refine hinitial.exists_of_run
    [remembered, .call (.write ⟨.server, .bi, 0⟩ [7]), .zeroRttRejected] ?_
  exact ⟨_, rfl, _, rfl, ⟨rfl, rfl⟩, rfl⟩

end Quac.StreamSchedule
