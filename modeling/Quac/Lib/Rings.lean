import Mathlib.Data.List.Basic
import Mathlib.Data.Nat.ModEq

/-!
Ring buffers: slots addressed by their distance from a cursor.
-/

namespace Quac.Lib.Rings

open Function List

variable {α : Type*} {n : Nat} [NeZero n] {ring : Fin n → Option α} {cursor : Fin n}

/-- The slot `i` steps after the cursor. -/
def slot (cursor : Fin n) (i : Nat) : Fin n :=
  Fin.ofNat n (cursor + i)

theorem slot_zero (cursor : Fin n) : slot cursor 0 = cursor := by
  simp [slot]

theorem slot_slot (cursor : Fin n) (i j : Nat) : slot (slot cursor i) j = slot cursor (i + j) := by
  simp [slot, Fin.ext_iff, add_assoc]

theorem slot_mod (cursor : Fin n) (i : Nat) : slot cursor (i % n) = slot cursor i := by
  simp [slot, Fin.ext_iff]

theorem slot_inj {i j : Nat} (hi : i < n) (hj : j < n) : slot cursor i = slot cursor j ↔ i = j := by
  refine ⟨fun h => ?_, fun h => h ▸ rfl⟩
  have hmod : i ≡ j [MOD n] := Nat.ModEq.add_left_cancel' cursor (Fin.ext_iff.mp h)
  exact Nat.ModEq.eq_of_lt_of_lt hmod hi hj

theorem slot_ne {j : Nat} (hpos : 0 < j) (hj : j < n) : slot cursor j ≠ cursor := by
  intro heq
  rw [← slot_zero cursor, slot_slot, zero_add, slot_inj hj (hpos.trans hj)] at heq
  exact hpos.ne' heq

/-- Empties the first slots, one after the other. -/
def clear (ring : Fin n → Option α) (cursor : Fin n) (count : Nat) : Fin n → Option α :=
  (List.range count).foldl (fun ring i => Function.update ring (slot cursor i) none) ring

theorem clear_slot {count : Nat} (hcount : count ≤ n) {j : Nat} (hj : j < n) :
    clear ring cursor count (slot cursor j) = if j < count then none else ring (slot cursor j) := by
  induction count with
  | zero => rfl
  | succ count ih =>
    rw [clear, range_succ, foldl_append, foldl_cons, foldl_nil, ← clear]
    rcases eq_or_ne j count with rfl | hne
    · rw [update_self, if_pos (Nat.lt_succ_self j)]
    · rw [update_of_ne (mt (slot_inj hj hcount).mp hne), ih (Nat.le_of_succ_le hcount)]
      exact if_congr (by omega) rfl rfl

/-- What is in the ring, with its distance from the cursor. -/
def occupied (ring : Fin n → Option α) (cursor : Fin n) : List (Nat × α) :=
  (List.range n).filterMap fun step => (ring (slot cursor step)).map (step, ·)

theorem occupied_eq_nil (h : occupied ring cursor = []) {j : Nat} (hj : j < n) :
    ring (slot cursor j) = none :=
  Option.map_eq_none_iff.mp (filterMap_eq_nil_iff.mp h j (mem_range.mpr hj))

theorem occupied_eq_cons {i : Nat} {x : α} {rest : List (Nat × α)}
    (h : occupied ring cursor = (i, x) :: rest) :
    i < n ∧ ring (slot cursor i) = some x ∧ ∀ j < i, ring (slot cursor j) = none := by
  obtain ⟨before, _, _, hrange, hnone, hsome, -⟩ := filterMap_eq_cons_iff.mp h
  obtain ⟨y, hy, heq⟩ := Option.map_eq_some_iff.mp hsome
  obtain ⟨rfl, rfl⟩ := Prod.mk.inj heq
  -- What comes before a number in the range are the smaller ones.
  rw [range_eq_range'] at hrange
  obtain ⟨k, _, rfl, hafter⟩ := range'_eq_append_iff.mp hrange
  obtain ⟨rfl, _, -⟩ := range'_eq_cons_iff.mp hafter.symm
  exact ⟨by omega, hy, fun j hj => Option.map_eq_none_iff.mp (hnone j (by simpa using hj))⟩

/-- The second element is the first once the slot of the cursor is emptied. -/
theorem occupied_second (h : ring cursor ≠ none) :
    (occupied ring cursor)[1]? = (occupied (update ring cursor none) cursor).head? := by
  obtain ⟨x, hx⟩ := Option.ne_none_iff_exists'.mp h
  obtain ⟨k, rfl⟩ := Nat.exists_eq_add_one_of_ne_zero (NeZero.ne n)
  simp only [occupied, range_succ_eq_map, filterMap_cons, slot_zero, hx,
    update_self, Option.map_some, Option.map_none, getElem?_cons_succ,
    ← head?_eq_getElem?]
  congr 1
  refine filterMap_congr fun step hstep => ?_
  obtain ⟨j, hj, rfl⟩ := mem_map.mp hstep
  have hj' := Nat.succ_lt_succ (mem_range.mp hj)
  rw [update_of_ne (slot_ne (Nat.succ_pos j) hj')]

end Quac.Lib.Rings
