import Quac.PacketSpaces

/-!
The packets sent after the last one that elicits acknowledgements.  Their counter stands for
the packets tracked above `largest_ack_eliciting_sent`; only packet number 0 is counted without
being above it, where no packet elicited an acknowledgement before.
-/

namespace Quac.SentTail

open Lib.Faults Lib.SortedMaps PacketSpaces PacketSpace SortedMap List

inductive Call
  | sent (number : Nat) (packet : SentPacket)
  | take (number : Nat)

def Call.number? : Call → Option Nat
  | .sent number _ => some number
  | .take _ => none

/-- The packet that a call returns, and the space after it. -/
def Call.apply (space : PacketSpace) : Call → Except Fault (Option SentPacket × PacketSpace)
  | .sent number packet => space.sent number packet
  | .take number => space.take number

def applyAll (space : PacketSpace) (calls : List Call) : Except Fault PacketSpace :=
  calls.foldlM (fun space call => do return (← call.apply space).2) space

def above (largest : Nat) (m : SortedMap Nat SentPacket) : List (Nat × SentPacket) :=
  m.entries.filter (largest < ·.1)

/-- The packets tracked above `largest_ack_eliciting_sent`. -/
def tail (s : PacketSpace) : List (Nat × SentPacket) :=
  above s.largestAckElicitingSent s.sentPackets

section Counter

variable {largest count number n : Nat} {m : SortedMap Nat SentPacket} {packet p : SentPacket}

structure Counted (largest : Nat) (m : SortedMap Nat SentPacket) (count : Nat) : Prop where
  silent : ∀ e ∈ above largest m, e.2.ackEliciting = false
  counted : (above largest m).length ≤ count
  counts : count ≤ (above largest m).length + 1
  bounded : count ≤ maxUnackedNonAckElictingTail + 1

/-- The number is higher than those sent.  At the start it may be 0, which is not above the
initial `largest_ack_eliciting_sent`. -/
structure Ahead (largest : Nat) (m : SortedMap Nat SentPacket) (count number : Nat) : Prop where
  tracked : ∀ e ∈ m.entries, e.1 < number
  le : largest ≤ number
  start : largest = number → count = 0

theorem mem_above {e : Nat × SentPacket} : e ∈ above largest m ↔ e ∈ m.entries ∧ largest < e.1 := by
  simp [above]

theorem length_above_of_perm {m' : SortedMap Nat SentPacket}
    (h : m.entries.Perm ((n, p) :: m'.entries)) : (above largest m).length =
      (above largest m').length + if largest < n then 1 else 0 := by
  unfold above
  rw [(h.filter _).length_eq, filter_cons]
  simp only [decide_eq_true_eq]
  split_ifs <;> rfl

theorem Counted.erase (h : Counted largest m count) (hmem : (n, p) ∈ m.entries) {count' : Nat}
    (hcount : count = count' + if largest < n then 1 else 0) :
    Counted largest (m.erase n) count' := by
  have hlength : (above largest m).length = _ := length_above_of_perm (entries_erase_perm hmem)
  obtain ⟨hsilent, _, _, _⟩ := h
  refine ⟨fun e he => ?_, by omega, by omega, by omega⟩
  obtain ⟨he, hlt⟩ := mem_above.mp he
  exact hsilent e (mem_above.mpr ⟨(mem_erase.mp he).1, hlt⟩)

theorem Counted.insert (h : Counted largest m count) (hfresh : ∀ e ∈ m.entries, e.1 < n)
    (hsilent : p.ackEliciting = false) {count' : Nat}
    (hcount : count' = count + (if largest < n then 1 else 0) ∨ count = 0 ∧ count' = 1)
    (hbounded : count' ≤ maxUnackedNonAckElictingTail + 1) :
    Counted largest (m.insert n p) count' := by
  have hlength : (above largest (m.insert n p)).length = _ :=
    length_above_of_perm (insertEntry_perm p fun e he => ne_of_lt (hfresh e he))
  obtain ⟨hold, _, _, -⟩ := h
  refine ⟨fun e he => ?_, ?_, ?_, hbounded⟩
  · obtain ⟨he, hlt⟩ := mem_above.mp he
    rcases mem_insert he with rfl | he
    · exact hsilent
    · exact hold e (mem_above.mpr ⟨he, hlt⟩)
  all_goals split_ifs at hlength hcount <;> omega

/-- What is forgotten is there, and is the lowest-numbered packet of those above. -/
theorem Counted.firstAbove (h : Counted largest m count)
    (hfull : maxUnackedNonAckElictingTail < count) : ∃ e, m.firstAbove largest = some e ∧
      e ∈ above largest m ∧ ∀ f ∈ above largest m, e.1 ≤ f.1 := by
  rcases hfirst : m.firstAbove largest with _ | e
  · have hnil : above largest m = [] := filter_eq_nil_iff.mpr (find?_eq_none.mp hfirst)
    have hcounts := h.counts
    rw [hnil, length_nil] at hcounts
    rw [maxUnackedNonAckElictingTail] at hfull
    omega
  · refine ⟨e, rfl, mem_above.mpr (mem_of_firstAbove hfirst), fun f hf => ?_⟩
    exact firstAbove_le hfirst (mem_above.mp hf).1 (mem_above.mp hf).2

end Counter

section Calls

variable {s : PacketSpace} {number : Nat}

structure Inv (s : PacketSpace) (numbers : List Nat) : Prop where
  counted : Counted s.largestAckElicitingSent s.sentPackets s.unackedNonAckElicitingTail
  ahead : ∀ n ∈ numbers, Ahead s.largestAckElicitingSent s.sentPackets
    s.unackedNonAckElicitingTail n

theorem inv_take {numbers : List Nat} (h : Inv s numbers) (number : Nat) :
    Ensures (fun _ => True) (fun r => Inv r.2 numbers) (s.take number) := by
  rw [PacketSpace.take]
  rcases hget : s.sentPackets.get? number with _ | _
  · exact .ok h
  have hmem := mem_of_get? hget
  have hrest : ∀ e ∈ (s.sentPackets.erase number).entries, e ∈ s.sentPackets.entries :=
    fun e he => (mem_erase.mp he).1
  dsimp only
  split_ifs with hin
  · rw [Bool.and_eq_true, decide_eq_true_eq] at hin
    have hcounted := h.counted.counted
    have hpos := length_pos_of_mem (mem_above.mpr ⟨hmem, hin.2⟩)
    split
    · omega
    · rename_i count hcount
      refine .ok ⟨h.counted.erase hmem (by rw [if_pos hin.2]; exact hcount), fun n hn => ?_⟩
      obtain ⟨htracked, hle, hstart⟩ := h.ahead n hn
      exact ⟨fun e he => htracked e (hrest e he), hle, fun heq => by cases hcount ▸ hstart heq⟩
  · have hnot : ¬ s.largestAckElicitingSent < number := by
      intro hlt
      rw [h.counted.silent _ (mem_above.mpr ⟨hmem, hlt⟩), decide_eq_true hlt] at hin
      exact hin rfl
    refine .ok ⟨h.counted.erase hmem (by rw [if_neg hnot]; rfl), fun n hn => ?_⟩
    obtain ⟨htracked, hle, hstart⟩ := h.ahead n hn
    exact ⟨fun e he => htracked e (hrest e he), hle, hstart⟩

theorem inv_sent {numbers : List Nat} (h : Inv s (number :: numbers))
    (hnumbers : ∀ n ∈ numbers, number < n) (packet : SentPacket) :
    Ensures (fun _ => True) (fun r => Inv r.2 numbers) (s.sent number packet) := by
  obtain ⟨htracked, hle, _⟩ := h.ahead number mem_cons_self
  have hnext : ∀ (m : SortedMap Nat SentPacket) largest count,
      (∀ e ∈ m.entries, e ∈ s.sentPackets.entries) → largest ≤ number →
      ∀ n ∈ numbers, Ahead largest (m.insert number packet) count n := by
    intro m largest count hm hle n hn
    have hlt := hnumbers n hn
    refine ⟨fun e he => ?_, by omega, by omega⟩
    rcases mem_insert he with rfl | he
    · exact hlt
    · exact lt_trans (htracked e (hm e he)) hlt
  rw [PacketSpace.sent]
  split_ifs with hack hfull
  · have hnil : above number (s.sentPackets.insert number packet) = [] := by
      refine filter_eq_nil_iff.mpr fun e he => ?_
      rcases mem_insert he with rfl | he
      · simp
      · simpa using le_of_lt (htracked e he)
    refine .ok ⟨⟨?_, ?_, Nat.zero_le _, Nat.zero_le _⟩, hnext _ _ _ (fun _ he => he) le_rfl⟩
    · rw [hnil]
      exact fun _ he => absurd he not_mem_nil
    · rw [hnil]
      exact le_rfl
  · obtain ⟨⟨oldest, _⟩, hfirst, hmem, -⟩ := h.counted.firstAbove hfull
    obtain ⟨hmem, hlt⟩ := mem_above.mp hmem
    rw [hfirst]
    have hrest : ∀ e ∈ (s.sentPackets.erase oldest).entries, e ∈ s.sentPackets.entries :=
      fun e he => (mem_erase.mp he).1
    obtain ⟨_, hcount⟩ := Nat.exists_eq_succ_of_ne_zero (Nat.ne_zero_of_lt hfull)
    have herased := h.counted.erase hmem (by rw [if_pos hlt]; exact hcount)
    have hnumber : s.largestAckElicitingSent < number := by omega
    refine .ok ⟨herased.insert (fun e he => htracked e (hrest e he)) (eq_false_of_ne_true hack)
      (.inl ?_) h.counted.bounded, hnext _ _ _ hrest hle⟩
    rw [if_pos hnumber]
    exact hcount
  · refine .ok ⟨h.counted.insert htracked (eq_false_of_ne_true hack) ?_ (by dsimp only; omega),
      hnext _ _ _ (fun _ he => he) hle⟩
    split_ifs <;> dsimp only <;> omega

theorem inv_applyAll {calls : List Call} (h : Inv s (calls.filterMap Call.number?))
    (hnumbers : (calls.filterMap Call.number?).Pairwise (· < ·)) :
    Ensures (fun _ => True) (Inv · []) (applyAll s calls) := by
  refine (Ensures.foldlM (fun calls s => Inv s (calls.filterMap Call.number?) ∧
    (calls.filterMap Call.number?).Pairwise (· < ·)) ?_ ⟨h, hnumbers⟩).mono fun _ hs => hs.1
  rintro (⟨number, packet⟩ | number) rest s ⟨h, hnumbers⟩
  · obtain ⟨hlt, hnumbers⟩ := pairwise_cons.mp hnumbers
    exact (inv_sent h hlt packet).bind fun _ hs => ⟨hs, hnumbers⟩
  · exact (inv_take h number).bind fun _ hs => ⟨hs, hnumbers⟩

theorem inv_new (numbers : List Nat) : Inv .new numbers :=
  ⟨⟨fun _ he => absurd he not_mem_nil, le_rfl, Nat.zero_le _, Nat.zero_le _⟩,
    fun n _ => ⟨fun _ he => absurd he not_mem_nil, Nat.zero_le n, fun _ => rfl⟩⟩

end Calls

/-- No call fails, what is forgotten is the first packet above the last one that elicits
acknowledgements and elicits none itself, and few such packets are tracked. -/
theorem tail_bookkeeping (calls : List Call) (h : (calls.filterMap Call.number?).Pairwise (· < ·)) :
    ∃ s, applyAll .new calls = .ok s ∧
      (∀ number packet forgotten s', s.sent number packet = .ok (some forgotten, s') →
        forgotten.ackEliciting = false ∧
          ∃ n, (n, forgotten) ∈ tail s ∧ ∀ e ∈ tail s, n ≤ e.1) ∧
      ((tail s).filter (!·.2.ackEliciting)).length ≤ maxUnackedNonAckElictingTail + 2 := by
  obtain ⟨s, hs, hinv⟩ := (inv_applyAll (inv_new _) h).exists_ok
  refine ⟨s, hs, fun number packet forgotten s' hsent => ?_, ?_⟩
  · rw [PacketSpace.sent] at hsent
    split_ifs at hsent with hack hfull
    · cases hsent
    · obtain ⟨e, hfirst, hmem, hmin⟩ := hinv.counted.firstAbove hfull
      rw [hfirst] at hsent
      cases hsent
      exact ⟨hinv.counted.silent e hmem, e.1, hmem, hmin⟩
    · cases hsent
  · have hcounted := hinv.counted.counted
    have hbounded := hinv.counted.bounded
    exact le_trans (length_filter_le _ _) (by rw [tail]; omega)

/-- Packet number 0 stays in the counter when it is taken, and the others leave it. -/
theorem packetZero_bookkeeping : ∃ s, applyAll .new [.sent 0 ⟨0, 0, 0, false⟩,
      .sent 1 ⟨0, 0, 0, false⟩, .take 0, .take 1, .sent 4 ⟨0, 0, 30, true⟩] = .ok s ∧
    ((tail s).filter (!·.2.ackEliciting)).length ≤ maxUnackedNonAckElictingTail + 2 := by
  obtain ⟨s, hs, -, hlength⟩ := tail_bookkeeping [.sent 0 ⟨0, 0, 0, false⟩,
    .sent 1 ⟨0, 0, 0, false⟩, .take 0, .take 1, .sent 4 ⟨0, 0, 30, true⟩] (by decide)
  exact ⟨s, hs, hlength⟩

end Quac.SentTail
