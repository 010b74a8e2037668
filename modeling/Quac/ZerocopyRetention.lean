import Quac.PacketSocket

/-!
How long the socket keeps the buffers that the kernel reads from: the calls of `send`
and `drain_completions` over the life of a socket.
-/

namespace Quac.ZerocopyRetention

open Lib.Transition PacketSocket List

/-- What `recvmsg` finds in the error queue. -/
inductive Message
  | noControl
  | otherOrigin
  /-- The notifications `lo` to `hi`; `copied` is `SO_EE_CODE_ZEROCOPY_COPIED`. -/
  | zerocopy (lo hi : Nat) (copied : Bool)

/-- `ee_info` and `ee_data` have 32 bits. -/
def releasedCount (lo hi : Nat) : Nat :=
  (UInt32.ofNat hi - UInt32.ofNat lo + 1).toNat

/-- The body of the loop of `drain_completions`. -/
def handleMessage {α : Type*} (socket : OsSocket α) : Message → OsSocket α
  | .noControl | .otherOrigin => socket
  | .zerocopy lo hi copied =>
    ⟨socket.zcInFlight.drop (releasedCount lo hi), socket.zerocopyEnabled && !copied⟩

/-- The transmits are numbered in the order in which they are handed to `send`. -/
structure State where
  socket : OsSocket Nat
  /-- `drain_completions` reads the error queue. -/
  draining : Bool
  nextTransmit : Nat
  /-- What `sendmmsg` accepted with `MSG_ZEROCOPY`; the ID is the position. -/
  submissions : List Nat
  /-- The IDs whose notifications have been read. -/
  notified : List Nat

inductive Label
  | send (count : Nat) (kernel : Nat → Answer)
  | drainCompletions
  | read (message : Message)
  /-- `recvmsg` finds nothing more. -/
  | queueEmpty

/-- The kernel notifies of each ID once. -/
def State.Due (s : State) : Message → Prop
  | .noControl | .otherOrigin => True
  | .zerocopy lo hi _ =>
    lo ≤ hi ∧ hi < s.submissions.length ∧ ∀ id ∈ List.range' lo (hi + 1 - lo), id ∉ s.notified

instance (s : State) : (message : Message) → Decidable (s.Due message)
  | .noControl | .otherOrigin => isTrue trivial
  | .zerocopy lo hi _ => inferInstanceAs (Decidable (lo ≤ hi ∧ hi < s.submissions.length ∧
      ∀ id ∈ List.range' lo (hi + 1 - lo), id ∉ s.notified))

def notifiedBy : Message → List Nat
  | .noControl | .otherOrigin => []
  | .zerocopy lo hi _ => List.range' lo (hi + 1 - lo)

def State.step (s : State) : Label → Option State
  | .send count kernel =>
    if s.draining then none
    else
      match PacketSocket.send s.socket kernel (List.range' s.nextTransmit count) with
      | .returns sending =>
        some { s with
          socket := sending.socket
          nextTransmit := s.nextTransmit + count
          -- `flags` is computed once, before the first call
          submissions := s.submissions ++
            if s.socket.zerocopyEnabled then sending.submitted else [] }
      | .panics | .unfinished => none
  | .drainCompletions =>
    if s.draining then none else some { s with draining := !s.socket.zcInFlight.isEmpty }
  | .read message =>
    if s.draining ∧ s.Due message then
      some { s with
        socket := handleMessage s.socket message
        notified := s.notified ++ notifiedBy message }
    else none
  | .queueEmpty => if s.draining then some { s with draining := false } else none

/-- The socket may have `SO_ZEROCOPY` or not. -/
def State.new (zerocopyEnabled : Bool) : State :=
  ⟨⟨[], zerocopyEnabled⟩, false, 0, [], []⟩

def system : System State Label where
  initial s := ∃ zerocopyEnabled, s = .new zerocopyEnabled
  step := State.step

def Retained (s : State) : Prop :=
  ∀ id transmit, s.submissions[id]? = some transmit → id ∉ s.notified →
    transmit ∈ s.socket.zcInFlight

/-- No `ENOBUFS` for a zerocopy call, and the notifications come in the order of the
IDs. -/
def Orderly (s : State) : Label → Prop
  | .send _ kernel => s.socket.zerocopyEnabled = true → ∀ call, kernel call ≠ .error true
  | .read (.zerocopy lo _ _) => ∀ id < lo, id ∈ s.notified
  | _ => True

theorem releasedCount_le {lo hi : Nat} (h : lo ≤ hi) : releasedCount lo hi ≤ hi + 1 - lo := by
  simp only [releasedCount, UInt32.toNat_add, UInt32.toNat_sub, UInt32.toNat_ofNat',
    UInt32.toNat_one]
  omega

structure Queued (s : State) (acked : Nat) : Prop where
  notified : ∀ id, id ∈ s.notified ↔ id < acked
  acked_le : acked ≤ s.submissions.length
  inFlight : ∃ stale, s.socket.zcInFlight = stale ++ s.submissions.drop acked

theorem Queued.retained {s : State} {acked : Nat} (h : Queued s acked) : Retained s := by
  intro id transmit hid hnot
  rw [h.notified, not_lt] at hnot
  obtain ⟨_, hqueue⟩ := h.inFlight
  rw [hqueue]
  apply mem_append_right
  rw [mem_iff_getElem?]
  refine ⟨id - acked, ?_⟩
  rw [getElem?_drop, show acked + (id - acked) = id by omega]
  exact hid

theorem Queued.send {s s' : State} {acked count : Nat} {kernel : Nat → Answer}
    (h : Queued s acked) (horderly : Orderly s (.send count kernel))
    (hstep : s.step (.send count kernel) = some s') : Queued s' acked := by
  have hidle : s.draining = false := by
    by_contra hdraining
    simp [State.step, hdraining] at hstep
  simp only [State.step, hidle, Bool.false_eq_true, if_false] at hstep
  rcases hzerocopy : s.socket.zerocopyEnabled with _ | _
  · obtain ⟨sending, sent, hsend, -, hsocket⟩ :=
      send_plain kernel (range' s.nextTransmit count) hzerocopy
    simp only [hsend, hzerocopy, Bool.false_eq_true, if_false, append_nil] at hstep
    cases hstep
    exact ⟨h.notified, h.acked_le, by rw [hsocket]; exact h.inFlight⟩
  · obtain ⟨_, _, hsend, hsplits, hsocket⟩ :=
      send_zerocopy (range' s.nextTransmit count) hzerocopy
        fun call hexhausted => horderly hzerocopy call hexhausted.enobufs
    simp only [hsend, hzerocopy, if_true] at hstep
    cases hstep
    obtain ⟨stale, hqueue⟩ := h.inFlight
    refine ⟨h.notified, ?_, stale, ?_⟩
    · rw [length_append]
      exact Nat.le_add_right_of_le h.acked_le
    · rw [hsocket, hsplits.submitted, hqueue, append_assoc,
        drop_append_of_le_length h.acked_le]

theorem Queued.read {s s' : State} {acked : Nat} {message : Message} (h : Queued s acked)
    (horderly : Orderly s (.read message)) (hstep : s.step (.read message) = some s') :
    ∃ acked', Queued s' acked' := by
  simp only [State.step] at hstep
  split_ifs at hstep with hdue
  cases hstep
  cases message with
  | noControl | otherOrigin =>
    exact ⟨acked, by simpa [notifiedBy] using h.notified, h.acked_le, h.inFlight⟩
  | zerocopy lo hi =>
    obtain ⟨-, hle, hlt, hfresh⟩ := hdue
    have hlo : lo = acked := by
      have hfirst : lo ∉ s.notified := hfresh lo (mem_range'_1.mpr ⟨le_rfl, by omega⟩)
      rw [h.notified, not_lt] at hfirst
      by_contra hne
      have := (h.notified acked).mp (horderly acked (by omega))
      omega
    obtain ⟨stale, hqueue⟩ := h.inFlight
    refine ⟨hi + 1, ?_, hlt, ?_⟩
    · intro id
      dsimp only [notifiedBy]
      rw [mem_append, h.notified, mem_range'_1]
      omega
    · have hsplit : s.submissions.drop acked =
          (s.submissions.drop acked).take (hi + 1 - lo) ++ s.submissions.drop (hi + 1) := by
        have hdrop := take_append_drop (hi + 1 - lo) (s.submissions.drop acked)
        rw [drop_drop, show acked + (hi + 1 - lo) = hi + 1 by omega] at hdrop
        exact hdrop.symm
      refine ⟨(stale ++ (s.submissions.drop acked).take (hi + 1 - lo)).drop (releasedCount lo hi),
        ?_⟩
      dsimp only [handleMessage]
      rw [hqueue]
      nth_rewrite 1 [hsplit]
      rw [← append_assoc]
      apply drop_append_of_le_length
      rw [length_append, length_take, length_drop]
      have := releasedCount_le hle
      omega

theorem retained_of_orderly {s : State} (hs : system.ReachableVia Orderly s) : Retained s := by
  have hqueued : ∃ acked, Queued s acked := by
    induction hs with
    | initial h =>
      obtain ⟨_, rfl⟩ := h
      exact ⟨0, by simp [State.new], le_rfl, [], rfl⟩
    | @step _ _ a _ horderly hstep ih =>
      obtain ⟨acked, h⟩ := ih
      cases a with
      | send => exact ⟨acked, h.send horderly hstep⟩
      | read => exact h.read horderly hstep
      | drainCompletions | queueEmpty =>
        simp only [system, State.step] at hstep
        split_ifs at hstep
        cases hstep
        exact ⟨acked, h.notified, h.acked_le, h.inFlight⟩
  obtain ⟨_, h⟩ := hqueued
  exact h.retained

/-- Two transmits are sent, and the kernel is done with the first. -/
theorem sentTwo_retained : ∃ s, system.ReachableVia Orderly s ∧ s.submissions = [0, 1] ∧
    s.notified = [0] ∧ (1 ∉ s.notified → 1 ∈ s.socket.zcInFlight) := by
  have hsent : system.ReachableVia Orderly ⟨⟨[0, 1], true⟩, false, 2, [0, 1], []⟩ :=
    .step (a := .send 2 fun _ => .accepts 2) (.initial ⟨true, rfl⟩)
      (fun _ _ => Answer.noConfusion) rfl
  have hdraining : system.ReachableVia Orderly ⟨⟨[0, 1], true⟩, true, 2, [0, 1], []⟩ :=
    .step (a := .drainCompletions) hsent trivial rfl
  have hread : system.ReachableVia Orderly ⟨⟨[1], true⟩, true, 2, [0, 1], [0]⟩ :=
    .step (a := .read (.zerocopy 0 0 false)) hdraining
      (fun id hid => absurd hid (Nat.not_lt_zero id)) rfl
  exact ⟨_, hread, rfl, rfl, retained_of_orderly hread 1 1 rfl⟩

/-- The kernel is done with the second transmit first; and an `ENOBUFS` after which the
call is repeated with the same flags. -/
theorem sent_released : (∃ s, system.Reachable s ∧ s.submissions[0]? = some 0 ∧ 0 ∉ s.notified ∧
      0 ∉ s.socket.zcInFlight ∧ s.notified = [1]) ∧
    ∃ s, system.Reachable s ∧ s.submissions[0]? = some 0 ∧ 0 ∉ s.notified ∧
      s.socket.zcInFlight = [] := by
  have hinitial : system.Reachable (.new true) := .initial ⟨true, rfl⟩
  constructor
  · refine hinitial.exists_of_run
      [.send 2 fun _ => .accepts 2, .drainCompletions, .read (.zerocopy 1 1 false)] ?_
    exact ⟨_, rfl, rfl, by decide, by decide, rfl⟩
  · refine hinitial.exists_of_run
      [.send 1 fun call => if call = 0 then .error true else .accepts 1] ?_
    exact ⟨_, rfl, rfl, by decide, rfl⟩

end Quac.ZerocopyRetention
