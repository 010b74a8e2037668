import Mathlib.Data.List.Flatten
import Quac.BufferedBytes

/-!
What a send buffer carries: the bytes written to it that are not acknowledged, each
at its place in the stream.  Whatever range is copied out of it is a part of what was
written.
-/

namespace Quac.SendContents

open BufferedBytes Identifiers Ranges SendData SendBuffer List

structure Carries (b : SendBuffer) (written : Bytes) : Prop where
  offset : b.offset = written.length
  unackedLen_le : b.unackedLen ≤ b.offset
  segments : b.unackedSegments.flatten = written.drop (b.offset - b.unackedLen)
  unsent_le : b.unsent ≤ b.offset
  acks : b.acks.Below b.offset
  retransmits : b.retransmits.Below b.offset

variable {b : SendBuffer} {written : Bytes}

theorem carries_new : Carries .new [] :=
  ⟨rfl, le_rfl, rfl, le_rfl, RangeSet.below_empty, RangeSet.below_empty⟩

theorem Carries.write (h : Carries b written) (data : Bytes) :
    Carries (b.write data) (written ++ data) := by
  have hoffset := h.offset
  have hle := h.unackedLen_le
  have hgrows : b.offset ≤ (b.write data).offset := Nat.le_add_right _ _
  refine ⟨?_, Nat.add_le_add_right hle _, ?_, Nat.le_trans h.unsent_le hgrows, h.acks.mono hgrows,
    h.retransmits.mono hgrows⟩
  · simp [hoffset]
  · have hbase : (b.write data).offset - (b.write data).unackedLen = b.offset - b.unackedLen := by
      simp only [SendBuffer.write]
      omega
    rw [hbase, drop_append_of_le_length (by omega), ← h.segments]
    simp [SendBuffer.write]

theorem flatten_advance (segments : List Bytes) (n : Nat) :
    (advance segments n).flatten = segments.flatten.drop n := by
  induction segments generalizing n with
  | nil => simp [advance]
  | cons _ _ ih =>
    unfold advance
    split_ifs with hzero hle
    · simp [hzero]
    · rw [ih, flatten_cons, drop_append, drop_eq_nil_of_le hle, nil_append]
    · rw [flatten_cons, flatten_cons, drop_append_of_le_length (by omega)]

theorem Carries.discardAcked (h : Carries b written) (fuel : Nat) :
    Carries (b.discardAcked fuel) written := by
  induction fuel generalizing b with
  | zero => exact h
  | succ _ ih =>
    unfold discardAcked
    split_ifs with hmin
    · split
      · exact h
      · rename_i start stop acks hpop
        -- The range starts where the buffer does and ends within what was written.
        obtain ⟨-, hstop, hrest⟩ := h.acks.popMin hpop
        have hstart : start = b.offset - b.unackedLen := by
          have := (RangeSet.min_eq_of_popMin hpop).symm.trans hmin
          exact Option.some.inj this
        have hle := h.unackedLen_le
        apply ih
        refine ⟨h.offset, ?_, ?_, h.unsent_le, hrest, h.retransmits⟩
        · dsimp only
          omega
        · dsimp only at hstop ⊢
          rw [flatten_advance, h.segments, drop_drop]
          congr 1
          omega
    · exact h

theorem Carries.ack (h : Carries b written) {start stop : Nat} (hstop : stop ≤ written.length) :
    Carries (b.ack start stop) written := by
  have hacks : (b.acks.insert ((b.offset - b.unackedLen).max start)
      ((b.offset - b.unackedLen).max stop)).Below b.offset := by
    refine h.acks.insert (Nat.max_le.mpr ⟨Nat.sub_le _ _, ?_⟩)
    rw [h.offset]
    exact hstop
  have hinserted : Carries { b with
      acks := b.acks.insert ((b.offset - b.unackedLen).max start)
        ((b.offset - b.unackedLen).max stop) } written :=
    { h with acks := hacks }
  exact hinserted.discardAcked _

theorem Carries.retransmit (h : Carries b written) {start stop : Nat}
    (hstop : stop ≤ written.length) : Carries (b.retransmit start stop) written :=
  { h with retransmits := h.retransmits.insert (h.offset ▸ hstop) }

theorem Carries.pollTransmit (h : Carries b written) {maxLen start stop : Nat} {encodeLength : Bool}
    {b' : SendBuffer} (hpoll : b.pollTransmit maxLen = ((start, stop), encodeLength, b')) :
    start ≤ stop ∧ stop ≤ written.length ∧ Carries b' written := by
  unfold SendBuffer.pollTransmit at hpoll
  split at hpoll
  · rename_i start' stop' retransmits hpop
    obtain ⟨hle, hstop, hrest⟩ := h.retransmits.popMin hpop
    obtain ⟨⟨rfl, rfl⟩, -, rfl⟩ := hpoll
    refine ⟨?_, ?_, h.offset, h.unackedLen_le, h.segments, h.unsent_le, h.acks, ?_⟩
    · exact Nat.le_min.mpr ⟨hle, Nat.le_add_left _ _⟩
    · rw [← h.offset]
      exact le_trans (Nat.min_le_left _ _) hstop
    · generalize stop'.min _ = sentStop
      split_ifs
      · exact hrest.insert hstop
      · exact hrest
  · obtain ⟨⟨rfl, rfl⟩, -, rfl⟩ := hpoll
    refine ⟨?_, ?_, h.offset, h.unackedLen_le, h.segments, Nat.min_le_left _ _, h.acks,
      h.retransmits⟩
    · exact Nat.le_min.mpr ⟨h.unsent_le, Nat.le_add_left _ _⟩
    · rw [← h.offset]
      exact Nat.min_le_left _ _

/-- What `get` returns stands in the segments where it was looked for. -/
theorem getElem?_getFrom (start stop : Nat) (segments : List Bytes) (segmentOffset i : Nat)
    (byte : UInt8) (h : (getFrom start stop segmentOffset segments)[i]? = some byte) :
    segmentOffset ≤ start ∧ segments.flatten[start - segmentOffset + i]? = some byte := by
  induction segments generalizing segmentOffset with
  | nil => simp [getFrom] at h
  | cons _ _ ih =>
    unfold getFrom at h
    split_ifs at h with hholds
    · refine ⟨hholds.1, ?_⟩
      rw [getElem?_drop, getElem?_take] at h
      split_ifs at h
      rw [flatten_cons, getElem?_append_left]
      · exact h
      · exact (List.getElem?_eq_some_iff.mp h).1
    · obtain ⟨_, hrest⟩ := ih _ h
      refine ⟨by omega, ?_⟩
      rw [flatten_cons, getElem?_append_right (by omega), ← hrest]
      congr 1
      omega

theorem Carries.copyRange (h : Carries b written) (fuel start stop : Nat) :
    Places (fun n byte => written[n]? = some byte) start (b.copyRange fuel start stop) := by
  induction fuel generalizing start with
  | zero => exact places_nil _
  | succ _ ih =>
    unfold SendBuffer.copyRange
    split_ifs
    · exact places_nil _
    · dsimp only
      split_ifs
      · exact places_nil _
      · refine Places.append (fun i byte hi => ?_) (ih _)
        obtain ⟨_, hbyte⟩ := getElem?_getFrom _ _ _ _ _ _ hi
        rw [h.segments, getElem?_drop] at hbyte
        rw [← hbyte]
        congr 1
        omega

end Quac.SendContents
