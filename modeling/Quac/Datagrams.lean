import Mathlib.Algebra.Order.BigOperators.Group.List
import Quac.Lib.Transition
import Quac.RecvHalf

/-!
Unreliable datagrams, `connection/datagrams.rs`: those received and not read yet.
-/

namespace Quac.Datagrams

open Identifiers Lib.Transition RecvHalf

structure DatagramState where
  recvBuffered : Nat
  incoming : List Bytes

def totalLength (queue : List Bytes) : Nat :=
  (queue.map List.length).sum

/-- Drop the oldest until the rest fits.  When nothing is left to drop, the loop does not
come to an end. -/
def dropUntil (fits : Nat → Bool) (total : Nat) : List Bytes → Option (Nat × List Bytes)
  | [] => if fits total then some (total, []) else none
  | data :: rest =>
    if fits total then some (total, data :: rest)
    else dropUntil fits (total - data.length) rest

theorem dropUntil_eq_some (fits : Nat → Bool) (hfits : fits 0 = true) (queue : List Bytes) :
    ∃ dropped rest, queue = dropped ++ rest ∧ fits (totalLength rest) = true ∧
      dropUntil fits (totalLength queue) queue = some (totalLength rest, rest) := by
  induction queue with
  | nil => exact ⟨[], [], rfl, hfits, if_pos hfits⟩
  | cons data queue ih =>
    rw [dropUntil]
    split_ifs with hall
    · exact ⟨[], _, rfl, hall, rfl⟩
    · obtain ⟨dropped, rest, hqueue, hrest, hdrop⟩ := ih
      refine ⟨data :: dropped, rest, by rw [hqueue, List.cons_append], hrest, ?_⟩
      have htotal : totalLength (data :: queue) - data.length = totalLength queue := by
        rw [totalLength, List.map_cons, List.sum_cons, Nat.add_sub_cancel_left]
        rfl
      rw [htotal, hdrop]

theorem totalLength_append (queue : List Bytes) (data : Bytes) :
    totalLength (queue ++ [data]) = totalLength queue + data.length := by
  simp [totalLength]

namespace DatagramState

def recv (s : DatagramState) : Option Bytes × DatagramState :=
  match s.incoming with
  | [] => (none, s)
  | data :: rest =>
    (some data, { s with recvBuffered := s.recvBuffered - data.length, incoming := rest })

/-- The flag tells that the application must be told. -/
def received (s : DatagramState) (data : Bytes) (window : Option Nat) :
    Option (Except TransportError Bool × DatagramState) :=
  match window with
  | none => some (.error ⟨.protocolViolation, "unexpected DATAGRAM frame"⟩, s)
  | some window =>
    if window < data.length then
      some (.error ⟨.protocolViolation, "oversized datagram"⟩, s)
    else
      (dropUntil (fun buffered => data.length + buffered ≤ window) s.recvBuffered s.incoming).map
        fun (buffered, incoming) => (.ok (decide (s.recvBuffered = 0)),
          { s with recvBuffered := buffered + data.length, incoming := incoming ++ [data] })

end DatagramState

section Receiving

inductive Read
  | frame (data : Bytes)
  | recv

/-- The frames that are accepted with a window and the application's reads. -/
def reading (window : Nat) : System DatagramState Read where
  initial s := s = ⟨0, []⟩
  step s
    | .frame data =>
      match s.received data (some window) with
      | some (.ok _, s) => some s
      | _ => none
    | .recv => some s.recv.2

def NotEmpty (_ : DatagramState) : Read → Prop
  | .frame data => data ≠ []
  | .recv => True

variable {window : Nat} {s s' : DatagramState} {data : Bytes}

structure Bounded (window : Nat) (s : DatagramState) : Prop where
  buffered : s.recvBuffered = totalLength s.incoming
  le_window : s.recvBuffered ≤ window
  notEmpty : ∀ data ∈ s.incoming, data ≠ []

theorem received_eq_some (hs : s.recvBuffered = totalLength s.incoming)
    (hdata : data.length ≤ window) :
    ∃ dropped rest, s.incoming = dropped ++ rest ∧ totalLength (rest ++ [data]) ≤ window ∧
      s.received data (some window) = some (.ok (decide (s.recvBuffered = 0)),
        { s with recvBuffered := totalLength (rest ++ [data]), incoming := rest ++ [data] }) := by
  obtain ⟨dropped, rest, hqueue, hfits, hdrop⟩ := dropUntil_eq_some
    (fun buffered => data.length + buffered ≤ window) (by simpa using hdata) s.incoming
  refine ⟨dropped, rest, hqueue, ?_, ?_⟩
  · rw [totalLength_append, add_comm]
    exact of_decide_eq_true hfits
  · rw [DatagramState.received]
    simp only [if_neg (not_lt.mpr hdata), hs, hdrop, Option.map_some, totalLength_append]

theorem Bounded.frame (h : Bounded window s) (hdata : data ≠ [])
    (hstep : (reading window).step s (.frame data) = some s') : Bounded window s' := by
  have hle : data.length ≤ window := by
    by_contra hlong
    simp [reading, DatagramState.received, lt_of_not_ge hlong] at hstep
  obtain ⟨_, _, hqueue, hfits, hreceived⟩ := received_eq_some h.buffered hle
  simp only [reading, hreceived] at hstep
  cases hstep
  refine ⟨rfl, hfits, fun d hd => ?_⟩
  rcases List.mem_append.mp hd with hd | hd
  · exact h.notEmpty d (hqueue ▸ List.mem_append_right _ hd)
  · exact List.mem_singleton.mp hd ▸ hdata

theorem Bounded.recv (h : Bounded window s) : Bounded window s.recv.2 := by
  obtain ⟨hbuffered, hle, hempty⟩ := h
  unfold DatagramState.recv
  split
  · exact ⟨hbuffered, hle, hempty⟩
  · rename_i data rest hqueue
    rw [hqueue, totalLength, List.map_cons, List.sum_cons] at hbuffered
    rw [hqueue] at hempty
    refine ⟨?_, le_trans (Nat.sub_le _ _) hle, fun d hd => hempty d (List.mem_cons_of_mem _ hd)⟩
    rw [hbuffered, Nat.add_sub_cancel_left]
    rfl

theorem length_le_totalLength {queue : List Bytes} (h : ∀ data ∈ queue, data ≠ []) :
    queue.length ≤ totalLength queue := by
  rw [totalLength, ← List.length_map List.length]
  refine List.length_le_sum_of_one_le _ fun n hn => ?_
  obtain ⟨data, hdata, rfl⟩ := List.mem_map.mp hn
  exact List.length_pos_iff.mpr (h data hdata)

end Receiving

/-- As long as no datagram is empty, the window bounds the queue and its length, every
frame is taken in, and the flag tells that the queue was empty. -/
theorem receive_queue_bounded {window : Nat} {s : DatagramState}
    (hs : (reading window).ReachableVia NotEmpty s) :
    s.recvBuffered = totalLength s.incoming ∧ s.recvBuffered ≤ window ∧ s.incoming.length ≤ window ∧
      ∀ data, data.length ≤ window →
        ∃ s', s.received data (some window) = some (.ok (decide (s.incoming = [])), s') := by
  have hbounded : Bounded window s := by
    refine hs.invariant ?_ ?_
    · rintro s rfl
      exact ⟨rfl, Nat.zero_le _, fun data hdata => by cases hdata⟩
    · intro s label s' h hlabel hstep
      cases label with
      | frame => exact h.frame hlabel hstep
      | recv =>
        cases hstep
        exact h.recv
  obtain ⟨hbuffered, hle, hempty⟩ := hbounded
  have hlength := length_le_totalLength hempty
  refine ⟨hbuffered, hle, le_trans hlength (hbuffered ▸ hle), fun data hdata => ?_⟩
  obtain ⟨_, _, -, -, hreceived⟩ := received_eq_some hbuffered hdata
  have hnone : s.recvBuffered = 0 ↔ s.incoming = [] := by
    rw [hbuffered]
    constructor
    · intro hzero
      exact List.length_eq_zero_iff.mp (Nat.le_zero.mp (hzero ▸ hlength))
    · intro hnil
      rw [hnil]
      rfl
  simp only [hnone] at hreceived
  exact ⟨_, hreceived⟩

theorem receive_queue_bounded_two : ∃ s, (reading 3).ReachableVia NotEmpty s ∧
    s.incoming = [[2, 2]] ∧ s.incoming.length ≤ 3 := by
  have hinitial : (reading 3).ReachableVia NotEmpty ⟨0, []⟩ := .initial rfl
  have hs := (hinitial.step (a := .frame [1, 1]) (by simp [NotEmpty]) rfl).step
    (a := .frame [2, 2]) (by simp [NotEmpty]) rfl
  exact ⟨_, hs, rfl, (receive_queue_bounded hs).2.2.1⟩

/-- Empty datagrams pile up in the window, and each is announced. -/
theorem empty_datagrams_pile_up : ∃ window > 0, ∀ count, ∃ s, (reading window).Reachable s ∧
    s.incoming.length = count ∧ ∃ s', s.received [] (some window) = some (.ok true, s') := by
  have hkept : ∀ queue : List Bytes, DatagramState.received ⟨0, queue⟩ [] (some 1200) =
      some (.ok true, ⟨0, queue ++ [[]]⟩) := by
    intro queue
    cases queue <;> rfl
  refine ⟨1200, by decide, fun count => ⟨⟨0, List.replicate count []⟩, ?_, by simp, _, hkept _⟩⟩
  induction count with
  | zero => exact .initial rfl
  | succ _ ih =>
    refine ih.step (a := .frame []) trivial ?_
    simp only [reading, hkept, List.replicate_succ']

end Quac.Datagrams
