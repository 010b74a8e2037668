import Quac.SendContents

/-!
Send buffers nothing of which is acknowledged, as they are before the handshake: they
still hold all that was written, so that any range of it can be sent again.
-/

namespace Quac.UnackedBuffers

open Identifiers Ranges SendContents SendData SendBuffer List

def content (b : SendBuffer) : Bytes :=
  b.unackedSegments.flatten

structure Whole (b : SendBuffer) : Prop where
  carries : Carries b (content b)
  unackedLen : b.unackedLen = b.offset

variable {b : SendBuffer}

theorem Whole.length (h : Whole b) : (content b).length = b.offset :=
  h.carries.offset.symm

theorem whole_new : Whole .new :=
  ⟨carries_new, rfl⟩

theorem content_write (b : SendBuffer) (data : Bytes) :
    content (b.write data) = content b ++ data := by
  simp [content, write]

theorem Whole.write (h : Whole b) (data : Bytes) : Whole (b.write data) := by
  refine ⟨?_, congrArg (· + data.length) h.unackedLen⟩
  rw [content_write]
  exact h.carries.write data

theorem Whole.retransmit (h : Whole b) {start stop : Nat} (hstop : stop ≤ b.offset) :
    Whole (b.retransmit start stop) :=
  ⟨h.carries.retransmit (h.length.symm ▸ hstop), h.unackedLen⟩

theorem Whole.rewound (h : Whole b) : Whole b.retransmitAllFor0rtt :=
  ⟨{ h.carries with unsent_le := Nat.zero_le _ }, h.unackedLen⟩

theorem getFrom_ne_nil (segments : List Bytes) {segmentOffset start : Nat} (stop : Nat)
    (hle : segmentOffset ≤ start) (hlt : start < segmentOffset + segments.flatten.length)
    (hstop : start < stop) :
    getFrom start stop segmentOffset segments ≠ [] ∧
      start + (getFrom start stop segmentOffset segments).length ≤ stop := by
  induction segments generalizing segmentOffset with
  | nil =>
    simp only [flatten_nil, length_nil] at hlt
    omega
  | cons _ _ ih =>
    rw [flatten_cons, length_append] at hlt
    unfold getFrom
    split_ifs with hholds
    · rw [← length_pos_iff, length_drop, length_take]
      omega
    · exact ih (by omega) (by omega)

theorem Whole.length_copyRange (h : Whole b) {fuel start stop : Nat} (hle : start ≤ stop)
    (hfuel : stop - start ≤ fuel) (hstop : stop ≤ b.offset) :
    (b.copyRange fuel start stop).length = stop - start := by
  induction fuel generalizing start with
  | zero =>
    unfold copyRange
    simp only [length_nil]
    omega
  | succ fuel ih =>
    unfold copyRange
    split_ifs with heq
    · simp only [length_nil]
      omega
    · have hbase : b.offset - b.unackedLen = 0 := by rw [h.unackedLen, Nat.sub_self]
      have hlen : b.unackedSegments.flatten.length = b.offset := h.length
      obtain ⟨hne, hend⟩ := getFrom_ne_nil b.unackedSegments stop (Nat.zero_le start)
        (by omega) (by omega)
      have hget : b.get start stop = getFrom start stop 0 b.unackedSegments := by
        unfold SendBuffer.get
        rw [hbase]
      rw [← hget] at hne hend
      have hpos := length_pos_iff.mpr hne
      have hrest : (b.copyRange fuel (start + (b.get start stop).length) stop).length =
          stop - (start + (b.get start stop).length) := ih hend (by omega)
      rw [if_neg (by simpa using hne), length_append, hrest]
      omega

theorem Whole.getElem?_copyRange (h : Whole b) {start stop n : Nat} (hstart : start ≤ n)
    (hn : n < stop) (hstop : stop ≤ b.offset) :
    (b.copyRange (stop - start) start stop)[n - start]? = (content b)[n]? := by
  have hlen := h.length_copyRange (le_trans hstart (le_of_lt hn)) le_rfl hstop
  have hlt : n - start < (b.copyRange (stop - start) start stop).length := by omega
  have hbyte := h.carries.copyRange (stop - start) start stop _ _ (getElem?_eq_getElem hlt)
  rw [getElem?_eq_getElem hlt, ← hbyte]
  congr 1
  omega

section Transmit

variable {maxLen start stop : Nat} {encodeLength : Bool} {b' : SendBuffer}

theorem content_pollTransmit (hpoll : b.pollTransmit maxLen = ((start, stop), encodeLength, b')) :
    content b' = content b ∧ b'.unackedLen = b.unackedLen ∧ b'.offset = b.offset := by
  unfold pollTransmit at hpoll
  split at hpoll <;>
  · obtain ⟨-, -, rfl⟩ := hpoll
    exact ⟨rfl, rfl, rfl⟩

theorem Whole.pollTransmit (h : Whole b)
    (hpoll : b.pollTransmit maxLen = ((start, stop), encodeLength, b')) : Whole b' := by
  obtain ⟨hcontent, hunacked, hoffset⟩ := content_pollTransmit hpoll
  refine ⟨?_, ?_⟩
  · rw [hcontent]
    exact (h.carries.pollTransmit hpoll).2.2
  · rw [hunacked, hoffset]
    exact h.unackedLen

theorem pollTransmit_unsent (hpoll : b.pollTransmit maxLen = ((start, stop), encodeLength, b')) :
    b'.unsent = b.unsent ∨ start = b.unsent ∧ b'.unsent = stop := by
  unfold pollTransmit at hpoll
  split at hpoll
  · obtain ⟨-, -, rfl⟩ := hpoll
    exact .inl rfl
  · obtain ⟨⟨rfl, rfl⟩, -, rfl⟩ := hpoll
    exact .inr ⟨rfl, rfl⟩

def effort (b : SendBuffer) : Nat :=
  b.retransmits.weight + (b.offset - b.unsent)

theorem room_pos {maxLen : Nat} (hroom : 17 ≤ maxLen) (low len : Nat) :
    1 ≤ if decide (len < if low ≠ 0 then maxLen - varIntSize low else maxLen) = true then
        (if low ≠ 0 then maxLen - varIntSize low else maxLen) - 8
      else if low ≠ 0 then maxLen - varIntSize low else maxLen := by
  have hlow := varIntSize_le low
  have hle : 9 ≤ if low ≠ 0 then maxLen - varIntSize low else maxLen := by
    split_ifs <;> omega
  split_ifs at hle ⊢ <;> omega

/-- A packet with room takes some of what waits, or there is nothing that waits. -/
theorem effort_pollTransmit (hroom : 17 ≤ maxLen)
    (hpoll : b.pollTransmit maxLen = ((start, stop), encodeLength, b')) :
    effort b' < effort b ∨ effort b' = effort b ∧ b'.hasUnsentData = false ∧ stop = b'.offset := by
  unfold pollTransmit at hpoll
  split at hpoll
  · rename_i low high retransmits hpop
    have hweight := RangeSet.weight_popMin hpop
    have hpos := room_pos hroom low (high - low)
    dsimp only at hpoll
    generalize (if decide (high - low < if low ≠ 0 then _ else _) = true then _ else _) = room
      at hpos hpoll
    simp only [Prod.mk.injEq] at hpoll
    obtain ⟨-, -, rfl⟩ := hpoll
    have hless : (if high.min (room + low) ≠ high then
        retransmits.insert (high.min (room + low)) high else retransmits).weight <
          b.retransmits.weight := by
      have hinsert : (retransmits.insert (high.min (room + low)) high).weight ≤
          retransmits.weight + (high - high.min (room + low) + 1) := RangeSet.weight_insert_le
      have hmin : high.min (room + low) = min high (room + low) := rfl
      split_ifs <;> omega
    unfold effort
    dsimp only
    omega
  · rename_i hpop
    have hpos := room_pos hroom b.unsent (b.offset - b.unsent)
    dsimp only at hpoll
    generalize (if decide (b.offset - b.unsent < if b.unsent ≠ 0 then _ else _) = true then _
      else _) = room at hpos hpoll
    obtain ⟨⟨-, rfl⟩, -, rfl⟩ := hpoll
    have hempty : b.retransmits.isEmpty = true := by
      unfold RangeSet.popMin at hpop
      split at hpop
      · rename_i hranges
        simp [RangeSet.isEmpty, hranges]
      · cases hpop
    have hmin : b.offset.min (room + b.unsent) = min b.offset (room + b.unsent) := rfl
    unfold effort hasUnsentData
    simp only [hempty, Bool.not_true, Bool.or_false, bne_eq_false_iff_eq]
    omega

end Transmit

end Quac.UnackedBuffers
