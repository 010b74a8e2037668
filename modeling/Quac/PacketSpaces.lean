import Quac.Identifiers
import Quac.Lib.Faults
import Quac.Lib.SortedMaps

/-!
Packet number spaces: the numbers that go out and come in, and the packets sent
whose fate is not yet known.
-/

namespace Quac.PacketSpaces

open Identifiers Lib.Faults Lib.SortedMaps SortedMap List

inductive SpaceId
  | initial
  | handshake
  | data
deriving DecidableEq

def SpaceId.all : List SpaceId :=
  [.initial, .handshake, .data]

inductive Fault
  /-- A counter of bytes or packets in flight went below zero. -/
  | underflow
  /-- An `unwrap`, an `assert` or another overflow. -/
  | panic

def Fault.IsUnderflow (fault : Fault) : Prop :=
  fault = .underflow

/-- No counter goes below zero, and what is returned meets `P`. -/
abbrev Safe {α : Type} (P : α → Prop) (x : Except Fault α) : Prop :=
  Ensures Fault.IsUnderflow P x

theorem not_isUnderflow_panic : ¬ Fault.panic.IsUnderflow := by
  rintro ⟨⟩

structure SentPacket where
  /-- The generation of the path the packet was sent on. -/
  pathGeneration : Nat
  timeSent : Instant
  /-- Zero if the packet is not counted towards congestion control. -/
  size : Nat
  ackEliciting : Bool
deriving DecidableEq

/-- The packet numbers received, as far back as the window goes. -/
structure Dedup where
  window : BitVec 128
  /-- Lowest packet number higher than all yet authenticated. -/
  next : Nat
  next_lt : next < 2 ^ 64

variable {n : Nat}

namespace Dedup

def new : Dedup :=
  ⟨0, 0, by decide⟩

def windowSize : Nat := 129

def highest (d : Dedup) : Nat :=
  d.next - 1

/-- `u128::checked_shl` with `unwrap_or(0)`. -/
def checkedShl (window : BitVec 128) (n : Nat) : BitVec 128 :=
  if n < 128 then window <<< n else 0

/-- Whether the packet might be a duplicate, and the numbers with it. -/
def insert (d : Dedup) (packet : Nat) : Except Fault (Bool × Dedup) :=
  if d.next ≤ packet then
    if h : packet + 1 < 2 ^ 64 then
      let window := checkedShl ((d.window <<< 1) ||| 1) (min (packet - d.next) (2 ^ 32 - 1))
      .ok (false, ⟨window, packet + 1, h⟩)
    else .error .panic
  else if d.highest - packet < windowSize then
    match d.highest - packet with
    | 0 => .ok (true, d)
    | bit + 1 => .ok (d.window.getLsbD bit, { d with window := d.window ||| 1#128 <<< bit })
  else .ok (true, d)

/-- The number is known to have been received; the highest one is not in the window,
and those to the left of the window count as received. -/
def Seen (d : Dedup) (n : Nat) : Prop :=
  n < d.next ∧ ∀ bit < 128, n + bit + 2 = d.next → d.window.getLsbD bit = true

theorem seen_iff (d : Dedup) (m : Nat) : d.Seen m ↔ m < d.next ∧
      (m + 1 = d.next ∨ m + 130 ≤ d.next ∨ d.window.getLsbD (d.next - 2 - m) = true) := by
  refine and_congr_right fun hlt => ⟨fun h => ?_, fun h bit hbit heq => ?_⟩
  · by_cases hin : m + 1 = d.next ∨ m + 130 ≤ d.next
    · exact hin.imp_right .inl
    · exact .inr (.inr (h _ (by omega) (by omega)))
  · obtain rfl : bit = d.next - 2 - m := by omega
    exact (h.resolve_left (by omega)).resolve_left (by omega)

variable {d : Dedup}

theorem seen_shift {packet m : Nat} (hpacket : d.next ≤ packet) (hm : m < packet)
    (hin : packet < m + 129) :
    (checkedShl ((d.window <<< 1) ||| 1) (min (packet - d.next) (2 ^ 32 - 1))).getLsbD
      (packet - 1 - m) = true ↔ d.Seen m := by
  have hbit : packet - 1 - m < 128 := by omega
  rw [seen_iff, checkedShl]
  by_cases hlt : m < d.next
  · have hshift : min (packet - d.next) (2 ^ 32 - 1) = packet - d.next := by omega
    have hback : packet - 1 - m - (packet - d.next) = d.next - 1 - m := by omega
    have hpast : ¬packet - 1 - m < packet - d.next := by omega
    rw [hshift, if_pos (by omega), BitVec.getLsbD_shiftLeft, BitVec.getLsbD_or, hback]
    -- The old highest number comes in at the right, the others move along.
    by_cases hhighest : m + 1 = d.next
    · have hfirst : d.next - 1 - m = 0 := by omega
      simp [hfirst, hbit, hpast, hlt, hhighest]
    · have hsub : d.next - 1 - m = d.next - 2 - m + 1 := by omega
      have hsmall : d.next - 2 - m + 1 < 128 := by omega
      have hnear : ¬m + 130 ≤ d.next := by omega
      simp [hsub, hbit, hpast, hlt, hhighest, hsmall, hnear, -BitVec.getLsbD_eq_getElem]
  · have hshift : packet - 1 - m < min (packet - d.next) (2 ^ 32 - 1) := by omega
    refine iff_of_false ?_ fun h => hlt h.1
    split_ifs
    · rw [BitVec.getLsbD_shiftLeft, decide_eq_true hshift]
      simp
    · simp

/-- An insertion adds its number to those known, and those that the window leaves behind. -/
theorem insert_eq_ok {d' : Dedup} {duplicate : Bool} (h : d.insert n = .ok (duplicate, d')) :
    d'.next = max d.next (n + 1) ∧
      (∀ m, d'.Seen m ↔ m < d'.next ∧ (d.Seen m ∨ m = n ∨ m + 130 ≤ d'.next)) ∧
      (duplicate = true ↔ d.Seen n) := by
  have hpresent : d.Seen n → d.next = max d.next (n + 1) ∧
      (∀ m, d.Seen m ↔ m < d.next ∧ (d.Seen m ∨ m = n ∨ m + 130 ≤ d.next)) ∧
      (true = true ↔ d.Seen n) := by
    intro hn
    refine ⟨(max_eq_left hn.1).symm, fun m => ⟨fun hm => ⟨hm.1, .inl hm⟩, ?_⟩, by simp [hn]⟩
    rintro ⟨hlt, hm | rfl | hm⟩
    · exact hm
    · exact hn
    · exact (seen_iff d m).mpr ⟨hlt, .inr (.inl hm)⟩
  rw [insert] at h
  split_ifs at h with hnew hlt hnear
  · cases h
    refine ⟨(max_eq_right (Nat.le_succ_of_le hnew)).symm, fun m => ?_, ?_⟩
    · rw [seen_iff]
      refine and_congr_right fun hm => ?_
      change m < n + 1 at hm
      change m + 1 = n + 1 ∨ m + 130 ≤ n + 1 ∨ _ ↔ _ ∨ m = n ∨ m + 130 ≤ n + 1
      by_cases hin : m = n ∨ m + 130 ≤ n + 1
      · exact iff_of_true (by omega) (.inr hin)
      · have hshift := seen_shift hnew (m := m) (by omega) (by omega)
        have hleft : m ≠ n ∧ m + 1 ≠ n + 1 ∧ ¬m + 130 ≤ n + 1 := by omega
        simpa only [hleft, false_or, or_false, Nat.reduceSubDiff] using hshift
    · exact iff_of_false Bool.false_ne_true fun hseen => absurd hseen.1 (not_lt.mpr hnew)
  · rw [highest, windowSize] at hnear
    split at h <;> cases h
    · next hbit =>
      rw [highest] at hbit
      exact hpresent ((seen_iff d n).mpr ⟨by omega, .inl (by omega)⟩)
    · next bit hbit =>
      rw [highest] at hbit
      obtain rfl : bit = d.next - 2 - n := by omega
      refine ⟨by dsimp only; omega, fun m => ?_, ?_⟩
      · simp only [seen_iff]
        refine and_congr_right fun hm => ?_
        have hone : (1#128 <<< (d.next - 2 - n)).getLsbD (d.next - 2 - m) = true ↔
            d.next - 2 - n = d.next - 2 - m := by
          change (BitVec.twoPow 128 _).getLsbD _ = true ↔ _
          simp only [BitVec.getLsbD_twoPow, Bool.and_eq_true, decide_eq_true_eq]
          omega
        rw [BitVec.getLsbD_or, Bool.or_eq_true, hone]
        generalize d.window.getLsbD _ = b
        cases b <;> simp <;> omega
      · have hinside : n < d.next ∧ n + 1 ≠ d.next ∧ ¬n + 130 ≤ d.next := by omega
        simp only [seen_iff, hinside, true_and, false_or]
  · rw [highest, windowSize] at hnear
    cases h
    exact hpresent ((seen_iff d n).mpr ⟨by omega, .inr (.inl (by omega))⟩)

theorem insert_eq_error {fault : Fault} (h : d.insert n = .error fault) :
    fault = .panic ∧ 2 ^ 64 ≤ n + 1 := by
  rw [insert] at h
  split_ifs at h with hnew hlt
  · cases h
    exact ⟨rfl, not_lt.mp hlt⟩
  · split at h <;> cases h

/-- What is inserted is known afterwards, with all that was known, and only what was
not known passes for new. -/
theorem insert_ensures (d : Dedup) (n : Nat) : Safe
      (fun r => r.2.Seen n ∧ (∀ m, d.Seen m → r.2.Seen m) ∧ (r.1 = false → ¬ d.Seen n))
      (d.insert n) := by
  rcases h : d.insert n with _ | ⟨_, _⟩
  · rw [(insert_eq_error h).1]
    exact not_isUnderflow_panic
  · obtain ⟨_, hseen, hduplicate⟩ := insert_eq_ok h
    refine .ok ⟨(hseen n).mpr ⟨by omega, .inr (.inl rfl)⟩, fun m hm => ?_, ?_⟩
    · have hlt := hm.1
      exact (hseen m).mpr ⟨by omega, .inl hm⟩
    · rintro rfl hn
      exact Bool.false_ne_true (hduplicate.mpr hn)

/-- The smallest packet missing between two that were received. -/
def smallestMissingInInterval (d : Dedup) (lowerBound upperBound : Nat) : Option Nat :=
  let lowerBound := lowerBound + 1
  let upperBound := upperBound - 1
  let startOffset := max (d.highest - upperBound) 1 - 1
  if 128 ≤ startOffset then none
  else
    let rangeLen := min (d.highest - lowerBound - startOffset) 128
    if rangeLen = 0 then none
    else
      let mask := if rangeLen = 128 then BitVec.allOnes 128
        else ((1#128 <<< rangeLen) - 1#128) <<< startOffset
      let gaps := ~~~d.window &&& mask
      let smallestMissingPacket := d.highest - (128 - gaps.clz.toNat)
      if smallestMissingPacket ≤ upperBound then some smallestMissingPacket else none

theorem getLsbD_mask {len start i : Nat} (h : start + len < 128) :
    (((1#128 <<< len) - 1#128) <<< start).getLsbD i = decide (start ≤ i ∧ i < start + len) := by
  have hones : ((1#128 <<< len) - 1#128).toNat = 2 ^ len - 1 := by
    have hpow : 2 ^ len < 2 ^ 128 := Nat.pow_lt_pow_right (by decide) (by omega)
    have hone := Nat.one_le_two_pow (n := len)
    simp only [BitVec.toNat_sub, BitVec.toNat_shiftLeft, BitVec.toNat_ofNat, Nat.shiftLeft_eq]
    omega
  have hbits (j : Nat) : ((1#128 <<< len) - 1#128).getLsbD j = decide (j < len) := by
    rw [BitVec.getLsbD, hones, Nat.testBit_two_pow_sub_one]
  rw [BitVec.getLsbD_shiftLeft, hbits, Bool.eq_iff_iff]
  simp only [Bool.and_eq_true, Bool.not_eq_true', decide_eq_true_eq, decide_eq_false_iff_not]
  omega

/-- The search agrees with one through the numbers between the bounds, in their order. -/
theorem smallestMissingInInterval_eq {lower upper : Nat} {missing : Nat → Bool}
    (hlt : lower < upper) (hupper : upper < d.next) (hwindow : d.next ≤ lower + 129)
    (hmissing : ∀ n, lower < n → n < upper → (missing n = true ↔ ¬ d.Seen n)) :
    d.smallestMissingInInterval lower upper =
      (range' (lower + 1) (upper - 1 - lower)).find? missing := by
  have hstart : max (d.highest - (upper - 1)) 1 - 1 = d.next - 1 - upper := by
    rw [highest]
    omega
  have hlen : min (d.highest - (lower + 1) - (d.next - 1 - upper)) 128 = upper - 1 - lower := by
    rw [highest]
    omega
  simp only [smallestMissingInInterval, hstart, hlen]
  rw [if_neg (by omega)]
  by_cases hempty : upper - 1 - lower = 0
  · rw [if_pos hempty, hempty]
    rfl
  have hshort : upper - 1 - lower ≠ 128 := by omega
  simp only [hempty, hshort, if_false]
  generalize hgaps : ~~~d.window &&& _ = gaps
  have hbits : ∀ i < 128, (gaps.getLsbD i = true ↔
      d.window.getLsbD i = false ∧ d.next - 1 - upper ≤ i ∧ i + lower + 2 < d.next) := by
    intro i hi
    rw [← hgaps, BitVec.getLsbD_and, getLsbD_mask (by omega), BitVec.getLsbD_not]
    simp only [hi, decide_true, Bool.true_and, Bool.and_eq_true, Bool.not_eq_true',
      decide_eq_true_eq]
    refine and_congr_right fun _ => ?_
    omega
  have hbit : ∀ n, lower < n → n < upper → (gaps.getLsbD (d.next - 2 - n) = true ↔ missing n) := by
    intro n hlow hhigh
    have hin : n < d.next ∧ n + 1 ≠ d.next ∧ ¬n + 130 ≤ d.next := by omega
    rw [hbits _ (by omega), hmissing n hlow hhigh, seen_iff]
    simp only [hin, true_and, false_or, Bool.not_eq_true]
    exact and_iff_left (by omega)
  have hclear : ∀ n, lower < n → n < upper → 128 - gaps.clz.toNat ≤ d.next - 2 - n →
      (!missing n) = true := by
    intro n hlow hhigh hle
    have hlt := lt_of_lt_of_le BitVec.toNat_lt_two_pow_sub_clz
      (Nat.pow_le_pow_right (by decide) hle)
    have hfalse : gaps.getLsbD (d.next - 2 - n) = false := Nat.testBit_lt_two_pow hlt
    rw [Bool.not_eq_true', ← Bool.not_eq_true, ← hbit n hlow hhigh, hfalse]
    exact Bool.false_ne_true
  rw [highest]
  by_cases hnone : 128 ≤ gaps.clz.toNat
  · rw [if_neg (by omega), eq_comm, find?_range'_eq_none]
    exact fun n hlow hhigh => hclear n hlow (by omega) (by omega)
  · have hne : gaps ≠ 0 := by
      rintro rfl
      exact hnone (by decide)
    have hset := BitVec.getLsbD_true_clz_of_ne_zero (by decide) hne
    obtain ⟨-, _, _⟩ := (hbits _ (by omega)).mp hset
    obtain ⟨n, hn⟩ : ∃ n, n = d.next - 1 - (128 - gaps.clz.toNat) := ⟨_, rfl⟩
    rw [show 128 - 1 - gaps.clz.toNat = d.next - 2 - n by omega,
      hbit n (by omega) (by omega)] at hset
    rw [if_pos (by omega), eq_comm, find?_range'_eq_some, ← hn, mem_range'_1]
    exact ⟨hset, by omega, fun m hlow hlt => hclear m hlow (by omega) (by omega)⟩

/-- The window after a sequence of numbers, the latest of them first. -/
def insertAll : List Nat → Except Fault Dedup
  | [] => .ok new
  | n :: ns => do
    let d ← insertAll ns
    let (_, d) ← d.insert n
    return d

/-- The window stands for the numbers inserted. -/
structure Represents (d : Dedup) (ns : List Nat) : Prop where
  lt_next : ∀ n ∈ ns, n < d.next
  highest_mem : 0 < d.next → d.highest ∈ ns
  seen : ∀ n, d.Seen n ↔ n < d.next ∧ (n ∈ ns ∨ n + 130 ≤ d.next)

theorem Represents.insert {d' : Dedup} {ns : List Nat} {duplicate : Bool}
    (h : d.Represents ns) (hinsert : d.insert n = .ok (duplicate, d')) :
    d'.Represents (n :: ns) := by
  obtain ⟨hnext, hseen, -⟩ := insert_eq_ok hinsert
  refine ⟨forall_mem_cons.mpr ⟨by omega, fun m hm => ?_⟩, fun _ => ?_, fun m => ?_⟩
  · have := h.lt_next m hm
    omega
  · rw [highest, hnext, mem_cons]
    rcases Nat.lt_or_ge n d.next with hold | _
    · rw [max_eq_left hold]
      exact .inr (h.highest_mem (by omega))
    · rw [max_eq_right (by omega)]
      exact .inl rfl
  · rw [hseen, h.seen, mem_cons]
    refine and_congr_right fun _ => ?_
    by_cases hm : m ∈ ns
    · simp [hm, h.lt_next m hm]
    · simp only [hm, false_or, or_false]
      omega

theorem exists_insert_eq_ok (d : Dedup) (hn : n < 2 ^ 62) :
    ∃ duplicate d', d.insert n = .ok (duplicate, d') := by
  rcases h : d.insert n with _ | ⟨duplicate, d'⟩
  · have := (insert_eq_error h).2
    omega
  · exact ⟨duplicate, d', rfl⟩

theorem represents_insertAll {ns : List Nat} (hns : ∀ n ∈ ns, n < 2 ^ 62) :
    ∃ d, insertAll ns = .ok d ∧ d.Represents ns := by
  induction ns with
  | nil => exact ⟨new, rfl, by simp, by simp [new], by simp [Seen, new]⟩
  | cons n _ ih =>
    obtain ⟨hn, hns⟩ := forall_mem_cons.mp hns
    obtain ⟨d, hd, hrep⟩ := ih hns
    obtain ⟨_, d', hinsert⟩ := exists_insert_eq_ok d hn
    refine ⟨d', ?_, hrep.insert hinsert⟩
    rw [insertAll, hd]
    change (d.insert n >>= _) = _
    rw [hinsert]
    rfl

/-- The window agrees with the plain set of the numbers inserted. -/
theorem window_agrees (ns : List Nat) (hns : ∀ n ∈ ns, n < 2 ^ 62) : ∃ d, insertAll ns = .ok d ∧
      (∀ n < 2 ^ 62, ∃ d', d.insert n = .ok (decide (n ∈ ns ∨ ∃ m ∈ ns, n + 128 < m), d')) ∧
      ∀ lower ∈ ns, ∀ upper ∈ ns, lower < upper → (∀ m ∈ ns, m ≤ lower + 128) →
        d.smallestMissingInInterval lower upper =
          (List.range' (lower + 1) (upper - 1 - lower)).find? (· ∉ ns) := by
  obtain ⟨d, hd, hrep⟩ := represents_insertAll hns
  refine ⟨d, hd, fun n hn => ?_, fun lower hlower upper hupper hlt hwindow => ?_⟩
  · obtain ⟨duplicate, d', hinsert⟩ := exists_insert_eq_ok d hn
    have hduplicate : duplicate = true ↔ n ∈ ns ∨ ∃ m ∈ ns, n + 128 < m := by
      rw [(insert_eq_ok hinsert).2.2, hrep.seen]
      constructor
      · rintro ⟨hlt, hmem | hold⟩
        · exact .inl hmem
        · exact .inr ⟨d.highest, hrep.highest_mem (by omega), by rw [highest]; omega⟩
      · rintro (hmem | ⟨m, hm, hlt⟩)
        · exact ⟨hrep.lt_next n hmem, .inl hmem⟩
        · have := hrep.lt_next m hm
          exact ⟨by omega, .inr (by omega)⟩
    refine ⟨d', ?_⟩
    rw [hinsert, Bool.eq_iff_iff.mpr (hduplicate.trans decide_eq_true_iff.symm)]
  · have hupper := hrep.lt_next upper hupper
    have hhighest := hwindow _ (hrep.highest_mem (by omega))
    rw [highest] at hhighest
    refine smallestMissingInInterval_eq hlt hupper (by omega) fun n hlow hhigh => ?_
    have hin : n < d.next ∧ ¬n + 130 ≤ d.next := by omega
    simp [hrep.seen, hin]

/-- Numbers 1, 4 and 3 arrive; 2 is missing between the first two of them. -/
theorem window_agrees_three :
    ∃ d, insertAll [3, 4, 1] = .ok d ∧ d.smallestMissingInInterval 1 4 = some 2 := by
  obtain ⟨d, hd, -, hmissing⟩ := window_agrees [3, 4, 1] (by decide)
  exact ⟨d, hd, hmissing 1 (by decide) 4 (by decide) (by decide) (by decide)⟩

end Dedup

structure PacketSpace where
  /-- Whether there are keys for the space. -/
  crypto : Bool
  nextPacketNumber : Nat
  largestAckedPacket : Option Nat
  largestAckElicitingSent : Nat
  /-- Number of packets in `sentPackets` with numbers above `largestAckElicitingSent`. -/
  unackedNonAckElicitingTail : Nat
  sentPackets : SortedMap Nat SentPacket
  /-- Highest received packet number. -/
  rxPacket : Nat
  dedup : Dedup

variable {s : PacketSpace}

namespace PacketSpace

def new : PacketSpace where
  crypto := false
  nextPacketNumber := 0
  largestAckedPacket := none
  largestAckElicitingSent := 0
  unackedNonAckElicitingTail := 0
  sentPackets := .empty
  rxPacket := 0
  dedup := .new

def maxUnackedNonAckElictingTail : Nat := 1000

def getTxNumber (space : PacketSpace) : Except Fault (Nat × PacketSpace) :=
  if space.nextPacketNumber < 2 ^ 62 then
    .ok (space.nextPacketNumber, { space with nextPacketNumber := space.nextPacketNumber + 1 })
  else .error .panic

/-- Stops tracking the packet, and returns what was known about it. -/
def take (space : PacketSpace) (number : Nat) : Except Fault (Option SentPacket × PacketSpace) :=
  match space.sentPackets.get? number with
  | none => .ok (none, space)
  | some packet =>
    let space := { space with sentPackets := space.sentPackets.erase number }
    if !packet.ackEliciting && space.largestAckElicitingSent < number then
      match space.unackedNonAckElicitingTail with
      | 0 => .error .panic
      | tail + 1 => .ok (some packet, { space with unackedNonAckElicitingTail := tail })
    else .ok (some packet, space)

/-- Tracks a packet, and may return one that is to be forgotten. -/
def sent (space : PacketSpace) (number : Nat) (packet : SentPacket) :
    Except Fault (Option SentPacket × PacketSpace) :=
  if packet.ackEliciting then
    .ok (none, { space with
      unackedNonAckElicitingTail := 0
      largestAckElicitingSent := number
      sentPackets := space.sentPackets.insert number packet })
  else if maxUnackedNonAckElictingTail < space.unackedNonAckElicitingTail then
    match space.sentPackets.firstAbove space.largestAckElicitingSent with
    | none => .error .panic
    | some (oldest, forgotten) =>
      .ok (some forgotten, { space with
        sentPackets := (space.sentPackets.erase oldest).insert number packet })
  else
    .ok (none, { space with
      unackedNonAckElicitingTail := space.unackedNonAckElicitingTail + 1
      sentPackets := space.sentPackets.insert number packet })

structure Sheds (s s' : PacketSpace) : Prop where
  crypto : s'.crypto = true → s.crypto = true
  next : s.nextPacketNumber ≤ s'.nextPacketNumber
  largest : s'.largestAckElicitingSent = s.largestAckElicitingSent
  entries : ∀ e ∈ s'.sentPackets.entries, e ∈ s.sentPackets.entries
  rxPacket : s'.rxPacket = s.rxPacket
  seen : ∀ n, s.dedup.Seen n → s'.dedup.Seen n
  /-- Where keys are given up, no packet stays behind. -/
  keyless : s'.crypto = false → s.crypto = false ∨ s'.sentPackets.entries = []

@[refl] theorem Sheds.refl (s : PacketSpace) : s.Sheds s :=
  ⟨id, le_rfl, rfl, fun _ => id, rfl, fun _ => id, .inl⟩

variable {t : PacketSpace}

theorem Sheds.crypto_eq_false (h : s.Sheds t) (hs : s.crypto = false) :
    t.crypto = false :=
  eq_false_of_ne_true fun ht => ne_true_of_eq_false hs (h.crypto ht)

theorem Sheds.entries_eq_nil (h : s.Sheds t)
    (hs : s.sentPackets.entries = []) : t.sentPackets.entries = [] :=
  eq_nil_of_subset_nil fun e he => hs ▸ h.entries e he

theorem Sheds.trans {u : PacketSpace} (h : s.Sheds t) (h' : t.Sheds u) : s.Sheds u where
  crypto hu := h.crypto (h'.crypto hu)
  next := le_trans h.next h'.next
  largest := h'.largest.trans h.largest
  entries e he := h.entries e (h'.entries e he)
  rxPacket := h'.rxPacket.trans h.rxPacket
  seen n hn := h'.seen n (h.seen n hn)
  keyless hu := by
    rcases h'.keyless hu with ht | hempty
    · exact (h.keyless ht).imp_right h'.entries_eq_nil
    · exact .inr hempty

theorem take_ensures (s : PacketSpace) (number : Nat) : Safe
      (fun r => s.Sheds r.2 ∧ s.sentPackets.values.Perm (r.1.toList ++ r.2.sentPackets.values))
      (s.take number) := by
  rw [take]
  rcases hget : s.sentPackets.get? number with _ | packet
  · exact .ok ⟨.refl s, .refl _⟩
  · have hperm : s.sentPackets.values.Perm (packet :: (s.sentPackets.erase number).values) :=
      values_erase_perm hget
    have hentries : ∀ e ∈ (s.sentPackets.erase number).entries, e ∈ s.sentPackets.entries :=
      fun e he => (mem_erase.mp he).1
    dsimp only
    split_ifs
    · split
      · exact not_isUnderflow_panic
      · exact .ok ⟨⟨id, le_rfl, rfl, hentries, rfl, fun _ => id, .inl⟩, hperm⟩
    · exact .ok ⟨⟨id, le_rfl, rfl, hentries, rfl, fun _ => id, .inl⟩, hperm⟩

theorem getTxNumber_ensures (s : PacketSpace) : Safe
      (fun r => s.nextPacketNumber ≤ r.1 ∧ r.1 < r.2.nextPacketNumber ∧
        r.2 = { s with nextPacketNumber := r.2.nextPacketNumber })
      s.getTxNumber := by
  rw [getTxNumber]
  split_ifs
  · exact .ok ⟨le_rfl, Nat.lt_succ_self _, rfl⟩
  · exact not_isUnderflow_panic

theorem getTxNumber_eq_ok (h : s.getTxNumber = .ok (n, t)) :
    n = s.nextPacketNumber ∧ t = { s with nextPacketNumber := n + 1 } := by
  rw [getTxNumber] at h
  split_ifs at h
  cases h
  exact ⟨rfl, rfl⟩

structure Tracks (s : PacketSpace) (number : Nat) (packet : SentPacket)
    (forgotten : Option SentPacket) (s' : PacketSpace) : Prop where
  values : (packet :: s.sentPackets.values).Perm (forgotten.toList ++ s'.sentPackets.values)
  entries : ∀ e ∈ s'.sentPackets.entries, e = (number, packet) ∨ e ∈ s.sentPackets.entries
  /-- What is forgotten went out after the last packet that elicits acknowledgements. -/
  forgotten : ∀ f, forgotten = some f → packet.ackEliciting = false ∧
    ∃ n, s.largestAckElicitingSent < n ∧ (n, f) ∈ s.sentPackets.entries
  largest : s'.largestAckElicitingSent =
    if packet.ackEliciting then number else s.largestAckElicitingSent
  rest : s' = { s with
    unackedNonAckElicitingTail := s'.unackedNonAckElicitingTail
    largestAckElicitingSent := s'.largestAckElicitingSent
    sentPackets := s'.sentPackets }

theorem sent_ensures {number : Nat} (packet : SentPacket)
    (h : ∀ e ∈ s.sentPackets.entries, e.1 < number) :
    Safe (fun r => s.Tracks number packet r.1 r.2) (s.sent number packet) := by
  have hfresh : ∀ e ∈ s.sentPackets.entries, e.1 ≠ number := fun e he => Nat.ne_of_lt (h e he)
  have hinsert := (values_insert_perm packet hfresh).symm
  rw [sent]
  split_ifs with hack htail
  · refine .ok ⟨hinsert, fun e => mem_insert, by rintro f ⟨⟩, ?_, rfl⟩
    rw [if_pos hack]
  · rcases hfirst : s.sentPackets.firstAbove s.largestAckElicitingSent with _ | ⟨oldest, forgotten⟩
    · exact not_isUnderflow_panic
    · obtain ⟨hmem, hlt⟩ := mem_of_firstAbove hfirst
      have hrest : ∀ e ∈ (s.sentPackets.erase oldest).entries, e ∈ s.sentPackets.entries :=
        fun e he => (mem_erase.mp he).1
      refine .ok ⟨?_, ?_, ?_, ?_, rfl⟩
      · have herase := values_erase_perm (get?_of_mem hmem)
        have hagain := values_insert_perm packet fun e he => hfresh e (hrest e he)
        exact (herase.cons packet).trans ((List.Perm.swap _ _ _).trans (hagain.symm.cons forgotten))
      · intro e he
        exact (mem_insert he).imp_right (hrest e)
      · rintro f ⟨⟩
        exact ⟨eq_false_of_ne_true hack, oldest, hlt, hmem⟩
      · rw [if_neg hack]
  · refine .ok ⟨hinsert, fun e => mem_insert, by rintro f ⟨⟩, ?_, rfl⟩
    rw [if_neg hack]

end PacketSpace

/-- Packet numbers of the Data space that are left out, to catch peers that
acknowledge what they have not received. -/
structure PacketNumberFilter where
  nextSkippedPacketNumber : Nat
  prevSkippedPacketNumber : Option Nat
  exponent : Nat

namespace PacketNumberFilter

/-- `random` is drawn from `0..64`. -/
def new (random : Nat) : PacketNumberFilter :=
  ⟨random, none, 6⟩

/-- `random` is what the generator draws from `2^exponent .. 2^(exponent + 1)`. -/
def allocate (filter : PacketNumberFilter) (random : Nat) (space : PacketSpace) :
    Except Fault (Nat × PacketNumberFilter × PacketSpace) := do
  let (n, space) ← space.getTxNumber
  if n ≠ filter.nextSkippedPacketNumber then
    return (n, filter, space)
  let (n', space) ← space.getTxNumber
  return (n', ⟨random, some filter.nextSkippedPacketNumber, filter.exponent + 1⟩, space)

def peek (filter : PacketNumberFilter) (space : PacketSpace) : Nat :=
  if space.nextPacketNumber ≠ filter.nextSkippedPacketNumber then space.nextPacketNumber
  else space.nextPacketNumber + 1

/-- Whether a range of acknowledged numbers passes. -/
def checkAck (filter : PacketNumberFilter) (space : SpaceId) (range : Nat × Nat) : Bool :=
  !(space = .data && filter.prevSkippedPacketNumber.any fun x => range.1 ≤ x && x ≤ range.2)

theorem allocate_ensures (filter : PacketNumberFilter) (random : Nat) (s : PacketSpace) :
    Safe
      (fun r => s.nextPacketNumber ≤ r.1 ∧ r.1 < r.2.2.nextPacketNumber ∧
        r.2.2 = { s with nextPacketNumber := r.2.2.nextPacketNumber })
      (filter.allocate random s) := by
  apply s.getTxNumber_ensures.bind
  rintro ⟨n, t⟩ ⟨hle, hlt, ht⟩
  dsimp only
  split_ifs
  · exact ensures_pure.mpr ⟨hle, hlt, ht⟩
  · apply t.getTxNumber_ensures.bind
    rintro ⟨n', u⟩ ⟨hle', hlt', hu⟩
    refine ensures_pure.mpr ⟨?_, hlt', ?_⟩
    · exact le_trans hle (le_trans (le_of_lt hlt) hle')
    · change t = _ at ht
      rw [hu, ht]

theorem allocate_eq_ok {filter filter' : PacketNumberFilter} {random : Nat}
    {s' : PacketSpace} (h : filter.allocate random s = .ok (n, filter', s')) :
    n = filter.peek s ∧ s'.nextPacketNumber = n + 1 ∧
      filter' = if s.nextPacketNumber = filter.nextSkippedPacketNumber then
        ⟨random, some filter.nextSkippedPacketNumber, filter.exponent + 1⟩ else filter := by
  obtain ⟨⟨m, t⟩, hfirst, h⟩ := bind_eq_ok h
  obtain ⟨rfl, rfl⟩ := PacketSpace.getTxNumber_eq_ok hfirst
  dsimp only at h
  rw [peek]
  by_cases hskip : s.nextPacketNumber = filter.nextSkippedPacketNumber
  · rw [if_neg (not_not.mpr hskip)] at h ⊢
    obtain ⟨⟨m, t⟩, hsecond, h⟩ := bind_eq_ok h
    obtain ⟨rfl, rfl⟩ := PacketSpace.getTxNumber_eq_ok hsecond
    cases h
    exact ⟨rfl, rfl, (if_pos hskip).symm⟩
  · rw [if_pos hskip] at h ⊢
    cases h
    exact ⟨rfl, rfl, (if_neg hskip).symm⟩

end PacketNumberFilter

end Quac.PacketSpaces
