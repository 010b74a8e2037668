import Mathlib.Data.List.Basic

/-!
Bounded first-in first-out queues.
-/

namespace Quac.Lib.BoundedQueue

@[ext] structure ArrayQueue (α : Type*) where
  capacity : Nat
  items : List α
  length_le : items.length ≤ capacity

namespace ArrayQueue

variable {α : Type*}

def new (capacity : Nat) : ArrayQueue α :=
  ⟨capacity, [], Nat.zero_le _⟩

/-- `none` when the queue is full. -/
def push (q : ArrayQueue α) (a : α) : Option (ArrayQueue α) :=
  if h : q.items.length < q.capacity then
    some ⟨q.capacity, q.items ++ [a], by
      rw [List.length_append]
      exact h⟩
  else none

def pop (q : ArrayQueue α) : Option (α × ArrayQueue α) :=
  match h : q.items with
  | [] => none
  | a :: rest => some (a, ⟨q.capacity, rest, by
      have := q.length_le
      rw [h, List.length_cons] at this
      omega⟩)

variable {q : ArrayQueue α}

theorem push_eq_some {q' : ArrayQueue α} {a : α} (h : q.push a = some q') :
    q.items.length < q.capacity ∧ q'.capacity = q.capacity ∧ q'.items = q.items ++ [a] := by
  unfold push at h
  split at h
  · rename_i hroom
    cases h
    exact ⟨hroom, rfl, rfl⟩
  · simp at h

theorem push_of_room (h : q.items.length < q.capacity) (a : α) :
    ∃ q' : ArrayQueue α, q.push a = some q' ∧ q'.items = q.items ++ [a] ∧
      q'.capacity = q.capacity :=
  ⟨_, dif_pos h, rfl, rfl⟩

theorem pop_eq_none (h : q.pop = none) : q.items = [] := by
  unfold pop at h
  split at h
  · assumption
  · simp at h

theorem pop_eq_some {q' : ArrayQueue α} {a : α} (h : q.pop = some (a, q')) :
    q'.capacity = q.capacity ∧ q.items = a :: q'.items := by
  unfold pop at h
  split at h
  · simp at h
  · rename_i hitems
    cases h
    exact ⟨rfl, hitems⟩

/-- Nothing was taken from the queue. -/
structure Fed (q q' : ArrayQueue α) : Prop where
  items : q.items <+: q'.items
  capacity : q'.capacity = q.capacity

namespace Fed

variable {q q' q'' : ArrayQueue α}

theorem refl : Fed q q :=
  ⟨List.prefix_refl _, rfl⟩

theorem trans (h : Fed q q') (h' : Fed q' q'') : Fed q q'' :=
  ⟨h.items.trans h'.items, h'.capacity.trans h.capacity⟩

theorem push (a : α) : Fed q ((q.push a).getD q) := by
  rcases hpush : q.push a with _ | _
  · exact refl
  · obtain ⟨-, hcapacity, hitems⟩ := push_eq_some hpush
    exact ⟨hitems ▸ List.prefix_append _ _, hcapacity⟩

theorem eq_of_full (h : Fed q q') (hfull : q.items.length = q.capacity) : q' = q := by
  have hle : q'.items.length ≤ q.items.length := by
    rw [hfull, ← h.capacity]
    exact q'.length_le
  exact ArrayQueue.ext h.capacity (h.items.eq_of_length_le hle).symm

end Fed

end ArrayQueue

end Quac.Lib.BoundedQueue
