import Mathlib.Data.List.Nodup

/-!
Slabs: storage whose keys are small numbers, where a freed key is handed out
again before a new one is.
-/

namespace Quac.Lib.Slabs

open List

@[ext] structure Slab (α : Type*) where
  entries : List (Option α)
  /-- The freed keys, the one freed last in front. -/
  vacant : List Nat
  nodup_vacant : vacant.Nodup
  mem_vacant_iff : ∀ k, k ∈ vacant ↔ entries[k]? = some none

namespace Slab

variable {α : Type*}

def empty : Slab α :=
  ⟨[], [], List.nodup_nil, by simp⟩

def get (s : Slab α) (k : Nat) : Option α :=
  (s.entries[k]?).join

def keys (s : Slab α) : List Nat :=
  (List.range s.entries.length).filter fun k => (s.get k).isSome

/-- The key that the next `insert` takes. -/
def vacantKey (s : Slab α) : Nat :=
  match s.vacant with
  | k :: _ => k
  | [] => s.entries.length

def insert (s : Slab α) (a : α) : Slab α :=
  match h : s.vacant with
  | k :: rest =>
    { entries := s.entries.set k (some a)
      vacant := rest
      nodup_vacant := (List.nodup_cons.mp (h ▸ s.nodup_vacant)).2
      mem_vacant_iff := by
        intro j
        have hk : k ∉ rest := (List.nodup_cons.mp (h ▸ s.nodup_vacant)).1
        have hj := s.mem_vacant_iff j
        rw [h, List.mem_cons] at hj
        rcases eq_or_ne k j with rfl | hne
        · simp [hk, List.getElem?_set_self', Option.map_eq_some_iff]
        · rw [List.getElem?_set_ne hne, ← hj]
          simp [hne.symm] }
  | [] =>
    { entries := s.entries ++ [some a]
      vacant := []
      nodup_vacant := List.nodup_nil
      mem_vacant_iff := by
        intro j
        have hj := s.mem_vacant_iff j
        simp only [h, List.not_mem_nil, false_iff] at hj ⊢
        rw [List.getElem?_append]
        split
        · exact hj
        · simp [List.getElem?_singleton] }

/-- Replace the value of an occupied key. -/
def set (s : Slab α) (k : Nat) (a : α) : Slab α :=
  if h : (s.get k).isSome then
    { entries := s.entries.set k (some a)
      vacant := s.vacant
      nodup_vacant := s.nodup_vacant
      mem_vacant_iff := by
        intro j
        rcases eq_or_ne k j with rfl | hne
        · have hk : s.entries[k]? ≠ some none := by
            intro hk
            simp [get, hk] at h
          rw [s.mem_vacant_iff]
          simp [hk, List.getElem?_set_self', Option.map_eq_some_iff]
        · rw [List.getElem?_set_ne hne]
          exact s.mem_vacant_iff j }
  else s

def remove (s : Slab α) (k : Nat) : Slab α :=
  if h : (s.get k).isSome then
    { entries := s.entries.set k none
      vacant := k :: s.vacant
      nodup_vacant := by
        refine List.nodup_cons.mpr ⟨?_, s.nodup_vacant⟩
        rw [s.mem_vacant_iff]
        intro hk
        simp [get, hk] at h
      mem_vacant_iff := by
        intro j
        have hlt : k < s.entries.length := by
          by_contra hge
          simp [get, List.getElem?_eq_none (Nat.le_of_not_lt hge)] at h
        rcases eq_or_ne k j with rfl | hne
        · simp [List.getElem?_set_self hlt]
        · rw [List.getElem?_set_ne hne, List.mem_cons, ← s.mem_vacant_iff]
          simp [hne.symm] }
  else s

variable {s : Slab α} {k : Nat}

theorem get_eq_some {a : α} (h : s.get k = some a) :
    s.entries[k]? = some (some a) :=
  Option.join_eq_some_iff.mp h

theorem lt_length_of_get (h : (s.get k).isSome) : k < s.entries.length := by
  obtain ⟨a, ha⟩ := Option.isSome_iff_exists.mp h
  exact (List.getElem?_eq_some_iff.mp (get_eq_some ha)).1

theorem mem_keys : k ∈ s.keys ↔ (s.get k).isSome := by
  simp only [keys, mem_filter, mem_range]
  exact ⟨And.right, fun h => ⟨lt_length_of_get h, h⟩⟩

@[simp] theorem get_vacantKey (s : Slab α) : s.get s.vacantKey = none := by
  unfold vacantKey
  split
  · rename_i k rest h
    have hk : s.entries[k]? = some none := (s.mem_vacant_iff k).mp (by simp [h])
    simp [get, hk]
  · simp [get]

theorem get_insert (s : Slab α) (a : α) (k : Nat) :
    (s.insert a).get k = if k = s.vacantKey then some a else s.get k := by
  unfold insert vacantKey
  split
  · rename_i j rest h
    have hj : s.entries[j]? = some none := (s.mem_vacant_iff j).mp (by simp [h])
    obtain ⟨hlt, -⟩ := List.getElem?_eq_some_iff.mp hj
    simp only [get, h]
    split
    · rename_i hk
      rw [hk, getElem?_set_self hlt]
      rfl
    · rename_i hk
      rw [getElem?_set_ne (Ne.symm hk)]
  · rename_i h
    simp only [get, h]
    split
    · rename_i hk
      simp [hk]
    · rename_i hk
      rcases Nat.lt_or_gt_of_ne hk with hlt | hgt
      · rw [getElem?_append_left hlt]
      · have hge : (s.entries ++ [some a]).length ≤ k := by
          rw [length_append]
          exact hgt
        rw [getElem?_eq_none (Nat.le_of_lt hgt), getElem?_eq_none hge]

theorem get_of_entries {s' : Slab α} {j : Nat} {x : Option α} (hlt : j < s.entries.length)
    (h : s'.entries = s.entries.set j x) (k : Nat) :
    s'.get k = if k = j then x else s.get k := by
  rw [get, h]
  split
  · rename_i hk
    rw [hk, getElem?_set_self hlt]
    rfl
  · rename_i hk
    rw [getElem?_set_ne (Ne.symm hk), get]

theorem get_set (s : Slab α) (j : Nat) (a : α) (k : Nat) (h : (s.get j).isSome) :
    (s.set j a).get k = if k = j then some a else s.get k := by
  refine get_of_entries (lt_length_of_get h) ?_ k
  rw [set, dif_pos h]

theorem get_set_of_ne (s : Slab α) {j : Nat} (a : α) (h : k ≠ j) :
    (s.set j a).get k = s.get k := by
  by_cases hj : (s.get j).isSome
  · rw [get_set s j a k hj, if_neg h]
  · simp [set, hj]

theorem set_self {a : α} (h : s.get k = some a) : s.set k a = s := by
  have hsome : (s.get k).isSome := by rw [h]; rfl
  obtain ⟨_, hentry⟩ := List.getElem?_eq_some_iff.mp (get_eq_some h)
  have hentries : s.entries.set k (some a) = s.entries := by
    rw [← hentry, set_getElem_self]
  rw [set, dif_pos hsome]
  congr

theorem get_remove (s : Slab α) (j k : Nat) :
    (s.remove j).get k = if k = j then none else s.get k := by
  by_cases hj : (s.get j).isSome
  · refine get_of_entries (lt_length_of_get hj) ?_ k
    rw [remove, dif_pos hj]
  · simp only [remove, dif_neg hj]
    split
    · rename_i hk
      subst hk
      simpa using hj
    · rfl

end Slab

end Quac.Lib.Slabs
