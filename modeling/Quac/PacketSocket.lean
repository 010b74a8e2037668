import Mathlib.Data.List.Sigma
import Quac.Lib.Transition
import Quac.Writer

/-!
The Linux socket (`OsSocket`): `send` with its calls of `sendmmsg`, and the release of
zerocopy buffers by `drain_completions`.  What the kernel answers is an input.
-/

namespace Quac.PacketSocket

open List

open Writer (batch)

inductive Answer
  | error (enobufs : Bool)
  /-- The number of messages accepted, of those that were passed. -/
  | accepts (count : Nat)

variable {kernel : Nat → Answer}

structure OsSocket (α : Type*) where
  zcInFlight : List α
  zerocopyEnabled : Bool
  deriving DecidableEq

/-- The variables of `send`.  `calls` counts the calls of `sendmmsg`, `submitted` lists
what the kernel accepted. -/
structure Sending (α : Type*) where
  socket : OsSocket α
  transmits : List α
  totalSent : Nat
  offset : Nat
  calls : Nat
  submitted : List α
  deriving DecidableEq

inductive Ending (α : Type*)
  /-- The fuel did not suffice. -/
  | unfinished
  | panics
  | returns (s : Sending α)
  deriving DecidableEq

section

variable {α : Type*}

/-- `transmits.drain(..count)`: what is taken out and what is left. -/
def drain (count : Nat) (transmits : List α) : Option (List α × List α) :=
  if count ≤ transmits.length then some (transmits.take count, transmits.drop count) else none

inductive Flow (α : Type*)
  | panics
  | continues (s : Sending α)
  | breaks (s : Sending α)

/-- The body of the loop; `flags` is set before the loop and not looked at here. -/
def iteration (kernel : Nat → Answer) (s : Sending α) : Flow α :=
  let n := min (s.transmits.length - s.offset) batch
  let chunk := (s.transmits.drop s.offset).take n
  match kernel s.calls with
  | .error enobufs =>
    if s.socket.zerocopyEnabled && enobufs then
      match drain s.totalSent s.transmits with
      | none => .panics
      | some (sent, transmits) =>
        .continues { s with
          socket := ⟨s.socket.zcInFlight ++ sent, false⟩
          transmits
          calls := s.calls + 1 }
    else .breaks { s with calls := s.calls + 1 }
  | .accepts count =>
    let sent := min count n
    let s := { s with
      totalSent := s.totalSent + sent
      offset := s.offset + sent
      calls := s.calls + 1
      submitted := s.submitted ++ chunk.take sent }
    if sent < n then .breaks s else .continues s

def sendLoop (kernel : Nat → Answer) : Nat → Sending α → Ending α
  | 0, _ => .unfinished
  | fuel + 1, s =>
    if s.offset < s.transmits.length then
      match iteration kernel s with
      | .panics => .panics
      | .continues s => sendLoop kernel fuel s
      | .breaks s => .returns s
    else .returns s

def finish (s : Sending α) : Ending α :=
  match drain s.totalSent s.transmits with
  | none => .panics
  | some (sent, transmits) =>
    .returns { s with
      transmits
      socket := if s.socket.zerocopyEnabled then ⟨s.socket.zcInFlight ++ sent, true⟩ else s.socket }

def start (socket : OsSocket α) (transmits : List α) : Sending α :=
  ⟨socket, transmits, 0, 0, 0, []⟩

def send (socket : OsSocket α) (kernel : Nat → Answer) (transmits : List α) : Ending α :=
  if transmits.isEmpty then .returns (start socket transmits)
  else
    match sendLoop kernel (transmits.length + 2) (start socket transmits) with
    | .returns s => finish s
    | ending => ending

/-- The call returns; what the kernel accepted it accepted once, and the rest is
handed back. -/
def Partitions [DecidableEq α] (transmits : List α) (ending : Ending α) : Prop :=
  ∃ s, ending = .returns s ∧ s.submitted.Nodup ∧ s.submitted ⊆ transmits ∧
    s.transmits = transmits.filter fun t => t ∉ s.submitted

/-- The call with this number gets all its messages accepted, even if it is a whole
batch. -/
def Full (kernel : Nat → Answer) (call : Nat) : Prop :=
  ∃ count, kernel call = .accepts count ∧ batch ≤ count

/-- The first call that does not get its whole batch accepted fails with `ENOBUFS`,
and it is the one with this number. -/
structure ExhaustedAt (kernel : Nat → Answer) (length call : Nat) : Prop where
  left : batch * call < length
  full : ∀ i < call, Full kernel i
  enobufs : kernel call = .error true

variable {call : Nat}

theorem ExhaustedAt.unique {length call' : Nat}
    (h : ExhaustedAt kernel length call) (h' : ExhaustedAt kernel length call') : call = call' := by
  have hle {i j : Nat} (hi : ExhaustedAt kernel length i) (hj : ExhaustedAt kernel length j) :
      j ≤ i := by
    by_contra hlt
    obtain ⟨_, haccepts, -⟩ := hj.full i (by omega)
    rw [hi.enobufs] at haccepts
    cases haccepts
  exact le_antisymm (hle h' h) (hle h h')

/-- The loop stands at its offset, which is also the number of transmits sent. -/
def Sending.advance (s : Sending α) (count calls : Nat) : Sending α :=
  { s with
    totalSent := s.totalSent + count
    offset := s.offset + count
    calls
    submitted := s.submitted ++ (s.transmits.drop s.offset).take count }

open Sending

theorem advance_advance (s : Sending α) (first second calls calls' : Nat) :
    (s.advance first calls).advance second calls' = s.advance (first + second) calls' := by
  simp only [advance, add_assoc, append_assoc, mk.injEq, true_and]
  rw [take_add, drop_drop]

theorem advance_zero (s : Sending α) : s.advance 0 s.calls = s := by
  simp [advance]

variable {s : Sending α}

theorem iteration_accepts {count : Nat} (h : kernel s.calls = .accepts count) :
    iteration kernel s = let n := min (s.transmits.length - s.offset) batch
      if min count n < n then .breaks (s.advance (min count n) (s.calls + 1))
      else .continues (s.advance (min count n) (s.calls + 1)) := by
  simp only [iteration, h, advance, take_take]
  rw [show min (min count (min (s.transmits.length - s.offset) batch))
    (min (s.transmits.length - s.offset) batch) =
      min count (min (s.transmits.length - s.offset) batch) by omega]

theorem sendLoop_plain (kernel : Nat → Answer) (fuel : Nat)
    (hplain : s.socket.zerocopyEnabled = false)
    (hfuel : s.transmits.length - s.offset < fuel) :
    ∃ count calls, count ≤ s.transmits.length - s.offset ∧
      sendLoop kernel fuel s = .returns (s.advance count calls) := by
  induction fuel generalizing s with
  | zero => omega
  | succ fuel ih =>
    rw [sendLoop]
    split_ifs with hlt
    · rcases hanswer : kernel s.calls with _ | accepted
      · refine ⟨0, s.calls + 1, Nat.zero_le _, ?_⟩
        simp only [iteration, hanswer, hplain, Bool.false_and, Bool.false_eq_true, if_false,
          advance, add_zero, take_zero, append_nil]
      · rw [iteration_accepts hanswer]
        dsimp only
        split_ifs with hshort
        · exact ⟨_, s.calls + 1, by omega, rfl⟩
        · have hpos : 0 < min (s.transmits.length - s.offset) batch := by
            simp only [batch]
            omega
          obtain ⟨count, calls, hcount, hrun⟩ :=
            ih (s := s.advance (min accepted (min (s.transmits.length - s.offset) batch))
              (s.calls + 1)) hplain (by
                change s.transmits.length - (s.offset + _) < fuel
                omega)
          refine ⟨_, calls, ?_, hrun.trans (by rw [advance_advance])⟩
          change count ≤ s.transmits.length - (s.offset + _) at hcount
          omega
    · exact ⟨0, s.calls, Nat.zero_le _, by rw [advance_zero]⟩

theorem sendLoop_full (hfull : ∀ call, Full kernel call) (fuel : Nat)
    (hle : s.offset ≤ s.transmits.length)
    (hfuel : s.transmits.length - s.offset < fuel) :
    ∃ calls, sendLoop kernel fuel s =
      .returns (s.advance (s.transmits.length - s.offset) calls) := by
  induction fuel generalizing s with
  | zero => omega
  | succ fuel ih =>
    rw [sendLoop]
    split_ifs with hlt
    · obtain ⟨accepted, hanswer, _⟩ := hfull s.calls
      rw [iteration_accepts hanswer]
      dsimp only
      generalize hn : min (s.transmits.length - s.offset) batch = n
      have hsent : min accepted n = n := by omega
      have hpos : 0 < n := by
        simp only [batch] at hn
        omega
      rw [hsent, if_neg (lt_irrefl n)]
      obtain ⟨calls, hrun⟩ := ih (s := s.advance n (s.calls + 1))
        (by change s.offset + n ≤ s.transmits.length; omega)
        (by change s.transmits.length - (s.offset + n) < fuel; omega)
      refine ⟨calls, hrun.trans ?_⟩
      rw [advance_advance]
      change Ending.returns (s.advance (n + (s.transmits.length - (s.offset + n))) calls) = _
      rw [show n + (s.transmits.length - (s.offset + n)) = s.transmits.length - s.offset by omega]
    · refine ⟨s.calls, ?_⟩
      rw [show s.transmits.length - s.offset = 0 by omega, advance_zero]

def Whole (kernel : Nat → Answer) (length call : Nat) : Prop :=
  ∃ count, kernel call = .accepts count ∧ min (length - batch * call) batch ≤ count

def Sending.exhausted (s : Sending α) (call : Nat) : Sending α :=
  { s with
    socket := ⟨s.socket.zcInFlight ++ s.transmits.take (batch * call), false⟩
    transmits := s.transmits.drop (batch * call)
    totalSent := batch * call
    offset := batch * call
    calls := call + 1
    submitted := s.submitted ++ (s.transmits.drop s.offset).take (batch * call - s.offset) }

theorem exhausted_advance {count calls : Nat} (h : s.offset + count ≤ batch * call) :
    (s.advance count calls).exhausted call = s.exhausted call := by
  simp only [exhausted, advance, append_assoc, mk.injEq, true_and, append_cancel_left_eq]
  rw [show batch * call - s.offset = count + (batch * call - (s.offset + count)) by omega,
    take_add, drop_drop]

/-- With zerocopy the loop moves on until the notifications are exhausted. -/
theorem sendLoop_zerocopy (kernel : Nat → Answer) (fuel : Nat)
    (hzerocopy : s.socket.zerocopyEnabled = true) (htotal : s.totalSent = s.offset)
    (hoffset : s.offset = min (batch * s.calls) s.transmits.length)
    (hwhole : ∀ i < s.calls, Whole kernel s.transmits.length i)
    (hfuel : s.transmits.length - s.offset + 1 < fuel) :
    (∃ count calls, count ≤ s.transmits.length - s.offset ∧
      (∀ call, ¬ ExhaustedAt kernel s.transmits.length call) ∧
      sendLoop kernel fuel s = .returns (s.advance count calls)) ∨
    ∃ call rest, ExhaustedAt kernel s.transmits.length call ∧
      s.transmits.length - batch * call < rest ∧
      sendLoop kernel fuel s = sendLoop kernel rest (s.exhausted call) := by
  induction fuel generalizing s with
  | zero => omega
  | succ fuel ih =>
    -- A call before this one was accepted, and one after it needs this one accepted.
    have hnot (call : Nat) (hcall : call ≠ s.calls ∨ kernel s.calls ≠ .error true)
        (hstop : ¬ Full kernel s.calls ∨ s.transmits.length ≤ s.offset) :
        ¬ ExhaustedAt kernel s.transmits.length call := by
      rintro ⟨hleft, hfull, henobufs⟩
      rcases Nat.lt_trichotomy call s.calls with hlt | rfl | hgt
      · obtain ⟨count, haccepts, -⟩ := hwhole call hlt
        rw [haccepts] at henobufs
        cases henobufs
      · exact hcall.elim (fun h => h rfl) fun h => h henobufs
      · refine hstop.elim (fun h => h (hfull _ hgt)) fun h => ?_
        simp only [batch] at *
        omega
    rw [sendLoop]
    split_ifs with hlt
    · have hat : s.offset = batch * s.calls := by omega
      rcases hanswer : kernel s.calls with enobufs | accepted
      · have hstop : ¬ Full kernel s.calls := by
          rintro ⟨count, haccepts, -⟩
          rw [hanswer] at haccepts
          cases haccepts
        cases enobufs with
        | true =>
          right
          refine ⟨s.calls, fuel, ⟨by omega, ?_, hanswer⟩, by omega, ?_⟩
          · intro i hi
            obtain ⟨count, haccepts, hcount⟩ := hwhole i hi
            refine ⟨count, haccepts, ?_⟩
            simp only [batch] at *
            omega
          · have hle : s.totalSent ≤ s.transmits.length := by omega
            simp only [iteration, hanswer, hzerocopy, Bool.and_self, if_true, drain, if_pos hle]
            simp only [exhausted, ← hat, htotal, Nat.sub_self, take_zero, append_nil]
        | false =>
          left
          refine ⟨0, s.calls + 1, Nat.zero_le _, ?_, ?_⟩
          · intro call
            exact hnot call (.inr (by rw [hanswer]; simp)) (.inl hstop)
          · simp only [iteration, hanswer, Bool.and_false, Bool.false_eq_true, if_false,
              advance, add_zero, take_zero, append_nil]
      · rw [iteration_accepts hanswer]
        dsimp only
        have hother : kernel s.calls ≠ .error true := by
          rw [hanswer]
          simp
        split_ifs with hshort
        · left
          refine ⟨_, s.calls + 1, by omega, ?_, rfl⟩
          intro call
          apply hnot call (.inr hother)
          left
          rintro ⟨count, haccepts, hcount⟩
          rw [hanswer] at haccepts
          cases haccepts
          omega
        · generalize hn : min (s.transmits.length - s.offset) batch = n at hshort ⊢
          have hsent : min accepted n = n := by omega
          have hpos : 0 < n := by
            simp only [batch] at hn
            omega
          rw [hsent]
          have hwhole' : ∀ i < s.calls + 1, Whole kernel s.transmits.length i := by
            intro i hi
            rcases Nat.lt_succ_iff_lt_or_eq.mp hi with hi | rfl
            · exact hwhole i hi
            · exact ⟨accepted, hanswer, by omega⟩
          have hnext : s.offset + n = min (batch * (s.calls + 1)) s.transmits.length := by
            rw [Nat.mul_succ]
            omega
          have hrest := ih (s := s.advance n (s.calls + 1)) hzerocopy
            (by simp only [advance, htotal]) hnext hwhole' (by
              change s.transmits.length - (s.offset + n) + 1 < fuel
              omega)
          rcases hrest with ⟨count, calls, hcount, hnone, hrun⟩ |
            ⟨call, rest, hexhausted, hrest, hrun⟩
          · left
            change count ≤ s.transmits.length - (s.offset + n) at hcount
            exact ⟨n + count, calls, by omega, hnone, hrun.trans (by rw [advance_advance])⟩
          · right
            refine ⟨call, rest, hexhausted, hrest, hrun.trans ?_⟩
            have hlater : s.calls + 1 ≤ call := by
              by_contra hle
              obtain ⟨_, haccepts, -⟩ := hwhole' call (by omega)
              rw [hexhausted.enobufs] at haccepts
              cases haccepts
            have hcall : s.offset + n ≤ batch * call := by
              have := Nat.mul_le_mul_left batch hlater
              omega
            rw [exhausted_advance hcall]
    · left
      refine ⟨0, s.calls, Nat.zero_le _, ?_, by rw [advance_zero]⟩
      intro call
      by_cases heq : call = s.calls
      · rintro ⟨hleft, -, -⟩
        rw [heq] at hleft
        omega
      · exact hnot call (.inl heq) (.inr (by omega))

theorem finish_of_le (h : s.totalSent ≤ s.transmits.length) :
    finish s = .returns { s with
      transmits := s.transmits.drop s.totalSent
      socket := if s.socket.zerocopyEnabled then
        ⟨s.socket.zcInFlight ++ s.transmits.take s.totalSent, true⟩ else s.socket } := by
  simp only [finish, drain, if_pos h]

variable {socket : OsSocket α} {kernel : Nat → Answer} {transmits : List α}

theorem send_of_loop
    (h : sendLoop kernel (transmits.length + 2) (start socket transmits) = .returns s)
    (hne : transmits ≠ []) : send socket kernel transmits = finish s := by
  rw [send, if_neg (by rwa [List.isEmpty_iff]), h]

structure Splits (transmits : List α) (s : Sending α) (count : Nat) : Prop where
  submitted : s.submitted = transmits.take count
  returned : s.transmits = transmits.drop count

theorem send_of_advance (hne : transmits ≠ []) {count calls : Nat}
    (hcount : count ≤ transmits.length)
    (h : sendLoop kernel (transmits.length + 2) (start socket transmits) =
      .returns ((start socket transmits).advance count calls)) :
    ∃ s, send socket kernel transmits = .returns s ∧ Splits transmits s count ∧
      s.socket = if socket.zerocopyEnabled then ⟨socket.zcInFlight ++ transmits.take count, true⟩
        else socket := by
  have hle : ((start socket transmits).advance count calls).totalSent ≤
      ((start socket transmits).advance count calls).transmits.length := by
    simpa [start, advance] using hcount
  refine ⟨_, (send_of_loop h hne).trans (finish_of_le hle), ⟨?_, ?_⟩, ?_⟩ <;>
    simp [start, advance]

theorem send_plain (kernel : Nat → Answer) (transmits : List α)
    (h : socket.zerocopyEnabled = false) :
    ∃ s count, send socket kernel transmits = .returns s ∧ Splits transmits s count ∧
      s.socket = socket := by
  by_cases hne : transmits = []
  · subst hne
    exact ⟨_, 0, rfl, ⟨rfl, rfl⟩, rfl⟩
  · obtain ⟨count, calls, hcount, hloop⟩ := sendLoop_plain kernel
      (transmits.length + 2) (s := start socket transmits) h (by simp [start])
    obtain ⟨s, hsend, hsplits, hsocket⟩ := send_of_advance hne hcount hloop
    exact ⟨s, count, hsend, hsplits, by simp [hsocket, h]⟩

theorem send_zerocopy (transmits : List α) (h : socket.zerocopyEnabled = true)
    (hnone : ∀ call, ¬ ExhaustedAt kernel transmits.length call) :
    ∃ s count, send socket kernel transmits = .returns s ∧ Splits transmits s count ∧
      s.socket = ⟨socket.zcInFlight ++ transmits.take count, true⟩ := by
  by_cases hne : transmits = []
  · subst hne
    refine ⟨_, 0, rfl, ⟨rfl, rfl⟩, ?_⟩
    rw [take_zero, append_nil, ← h]
    rfl
  · rcases sendLoop_zerocopy kernel (transmits.length + 2)
        (s := start socket transmits) h rfl (by simp [start]) (by simp [start]) (by simp [start])
      with ⟨count, calls, hcount, -, hloop⟩ | ⟨call, rest, hexhausted, -⟩
    · obtain ⟨s, hsend, hsplits, hsocket⟩ := send_of_advance hne hcount hloop
      exact ⟨s, count, hsend, hsplits, by simp [hsocket, h]⟩
    · exact absurd hexhausted (hnone call)

/-- The loop starts over on what the drain left, at its old offset. -/
theorem send_exhausted (h : socket.zerocopyEnabled = true)
    (hexhausted : ExhaustedAt kernel transmits.length call) :
    ∃ count calls, count ≤ (transmits.length - batch * call) - batch * call ∧
      send socket kernel transmits =
        finish (((start socket transmits).exhausted call).advance count calls) := by
  have hne : transmits ≠ [] := by
    rintro rfl
    exact absurd hexhausted.left (Nat.not_lt_zero _)
  rcases sendLoop_zerocopy kernel (transmits.length + 2)
      (s := start socket transmits) h rfl (by simp [start]) (by simp [start]) (by simp [start])
    with ⟨_, _, _, hnone, _⟩ | ⟨call', rest, hexhausted', hrest, hloop⟩
  · exact absurd hexhausted (hnone call)
  · obtain rfl : call' = call := hexhausted'.unique hexhausted
    obtain ⟨count, calls, hcount, hplain⟩ := sendLoop_plain kernel rest
      (s := (start socket transmits).exhausted call') rfl (by
        simp only [exhausted, start, length_drop] at hrest ⊢
        omega)
    refine ⟨count, calls, ?_, send_of_loop (hloop.trans hplain) hne⟩
    simpa [exhausted, start] using hcount

/-- Once something was sent, starting over loses as many transmits again. -/
theorem send_exhausted_later (h : socket.zerocopyEnabled = true)
    (hexhausted : ExhaustedAt kernel transmits.length call) (hlater : 0 < call)
    (hsend : send socket kernel transmits = .returns s) :
    s.transmits.length + s.submitted.length < transmits.length := by
  obtain ⟨_, _, _, heq⟩ := send_exhausted h hexhausted
  have hpos : 0 < batch * call := Nat.mul_pos (by decide) hlater
  rw [hsend, finish] at heq
  simp only [drain, advance, exhausted, start, length_drop, drop_zero,
    Nat.sub_zero, nil_append] at heq
  split at heq
  · cases heq
  · rename_i sent rest hdrain
    split_ifs at hdrain with hle
    cases hdrain
    cases heq
    simp only [length_append, length_take, length_drop]
    omega

theorem send_exhausted_first (h : socket.zerocopyEnabled = true)
    (hexhausted : ExhaustedAt kernel transmits.length 0) :
    ∃ s count, send socket kernel transmits = .returns s ∧ Splits transmits s count := by
  obtain ⟨count, calls, hcount, heq⟩ := send_exhausted h hexhausted
  have hle : (((start socket transmits).exhausted 0).advance count calls).totalSent ≤
      (((start socket transmits).exhausted 0).advance count calls).transmits.length := by
    simpa [start, exhausted, advance] using hcount
  refine ⟨_, count, heq.trans (finish_of_le hle), ⟨?_, ?_⟩⟩ <;> simp [start, exhausted, advance]

theorem Splits.partitions [DecidableEq α] {count : Nat}
    (hsplits : Splits transmits s count) (hnodup : transmits.Nodup)
    (hsend : send socket kernel transmits = .returns s) :
    Partitions transmits (send socket kernel transmits) := by
  refine ⟨s, hsend, ?_, ?_, ?_⟩
  · rw [hsplits.submitted]
    exact hnodup.sublist (take_sublist _ _)
  · rw [hsplits.submitted]
    exact take_subset _ _
  · rw [hsplits.submitted, hsplits.returned]
    conv_rhs =>
      arg 2
      rw [← take_append_drop count transmits]
    have hdisjoint := disjoint_take_drop hnodup (Nat.le_refl count)
    rw [filter_append, filter_eq_nil_iff.mpr, filter_eq_self.mpr, nil_append]
    · intro t ht
      exact decide_eq_true fun htake => hdisjoint htake ht
    · simp

theorem Partitions.length_le [DecidableEq α] (hdistinct : transmits.Nodup)
    (h : Partitions transmits (.returns s)) :
    transmits.length ≤ s.transmits.length + s.submitted.length := by
  obtain ⟨_, heq, -, -, hrest⟩ := h
  cases heq
  have hsplit := length_eq_length_filter_add (l := transmits) fun t => t ∉ s.submitted
  have hle : (transmits.filter fun t => !decide (t ∉ s.submitted)).length ≤ s.submitted.length := by
    refine (subperm_of_subset (hdistinct.filter _) ?_).length_le
    intro t ht
    simpa using (mem_filter.mp ht).2
  rw [hrest]
  omega

/-- `send` partitions its transmits, told apart by their positions, exactly when no
`ENOBUFS` comes after a batch was sent with zerocopy. -/
theorem send_partitions_iff [DecidableEq α] (socket : OsSocket (α × Nat)) (kernel : Nat → Answer)
    (transmits : List α) :
    Partitions transmits.zipIdx (send socket kernel transmits.zipIdx) ↔
      (socket.zerocopyEnabled = true →
        ∀ call, 0 < call → ¬ ExhaustedAt kernel transmits.length call) := by
  have hnodup : transmits.zipIdx.Nodup := .of_map Prod.snd (nodup_zipIdx_map_snd transmits)
  have hlength : transmits.zipIdx.length = transmits.length := length_zipIdx
  constructor
  · intro hpartitions hzerocopy call hcall hexhausted
    obtain ⟨s, hsend, hrest⟩ := hpartitions
    have hlost := send_exhausted_later hzerocopy (hlength ▸ hexhausted) hcall hsend
    have hle := Partitions.length_le hnodup ⟨s, rfl, hrest⟩
    omega
  · intro hcond
    rcases hzerocopy : socket.zerocopyEnabled with _ | _
    · obtain ⟨s, count, hsend, hsplits, -⟩ := send_plain kernel transmits.zipIdx hzerocopy
      exact hsplits.partitions hnodup hsend
    · by_cases hfirst : ExhaustedAt kernel transmits.length 0
      · obtain ⟨s, count, hsend, hsplits⟩ := send_exhausted_first hzerocopy (hlength ▸ hfirst)
        exact hsplits.partitions hnodup hsend
      · have hnone : ∀ call, ¬ ExhaustedAt kernel transmits.zipIdx.length call := by
          rw [hlength]
          intro call
          rcases Nat.eq_zero_or_pos call with rfl | hpos
          · exact hfirst
          · exact hcond hzerocopy call hpos
        obtain ⟨s, _, hsend, hsplits, -⟩ := send_zerocopy transmits.zipIdx hzerocopy hnone
        exact hsplits.partitions hnodup hsend

end

/-- The writer's model of `send` is the case of a kernel that accepts everything. -/
theorem submitted_headers (hfull : ∀ call, Full kernel call)
    (socket : OsSocket Writer.Transmit) (transmits : List Writer.Transmit) :
    ∃ s, send socket kernel transmits = .returns s ∧
      s.submitted.map Writer.messageHeader = Writer.send transmits := by
  rw [Writer.send_eq_map]
  by_cases hne : transmits = []
  · subst hne
    exact ⟨_, rfl, rfl⟩
  · obtain ⟨_, hloop⟩ := sendLoop_full hfull (transmits.length + 2)
      (s := start socket transmits) (Nat.zero_le _) (by simp [start])
    refine ⟨_, (send_of_loop hloop hne).trans (finish_of_le ?_), ?_⟩
    · simp [start, Sending.advance]
    · simp [start, Sending.advance]

theorem submitted_headers_two_calls : ∃ transmits s, transmits.length = 65 ∧
    send ⟨[], true⟩ (fun _ => .accepts batch) transmits = .returns s ∧
      s.submitted.map Writer.messageHeader = Writer.send transmits := by
  obtain ⟨s, hs⟩ := submitted_headers (fun _ => ⟨batch, rfl, le_rfl⟩) ⟨[], true⟩
    (replicate 65 ⟨(Writer.fullBatch 1).destination, none, [], none, none⟩)
  exact ⟨_, s, rfl, hs⟩

def exhaustedKernel : Nat → Answer
  | 1 => .error true
  | _ => .accepts batch

/-- The drain at the end reaches past what is left, or takes transmits that were never
submitted. -/
theorem exhausted_loses : send ⟨[], true⟩ exhaustedKernel (List.range 65).zipIdx = .panics ∧
    ∃ s, send ⟨[], true⟩ exhaustedKernel (List.range 129).zipIdx = .returns s ∧
      s.transmits = [] ∧ s.submitted.length = 65 := by
  refine ⟨by decide +kernel, ?_⟩
  have h : (match send ⟨[], true⟩ exhaustedKernel (range 129).zipIdx with
      | .returns s => s.transmits.isEmpty && s.submitted.length == 65
      | _ => false) = true := by decide +kernel
  split at h
  · rename_i s hsend
    rw [Bool.and_eq_true, List.isEmpty_iff, beq_iff_eq] at h
    exact ⟨s, hsend, h.1, h.2⟩
  · cases h

end Quac.PacketSocket
