import Mathlib.Data.List.Pairwise
import Mathlib.Data.List.Perm.Basic
import Mathlib.Order.Lattice

/-!
Finite maps that keep their entries in the order of the keys.
-/

namespace Quac.Lib.SortedMaps

open List

structure SortedMap (κ α : Type*) [LinearOrder κ] where
  entries : List (κ × α)
  sorted : entries.Pairwise fun e f => e.1 < f.1

variable {κ α : Type*} [LinearOrder κ] {e : κ × α} {k : κ} {a : α}

section Entries

def insertEntry (k : κ) (a : α) : List (κ × α) → List (κ × α)
  | [] => [(k, a)]
  | e :: rest =>
    if k < e.1 then (k, a) :: e :: rest
    else if k = e.1 then (k, a) :: rest
    else e :: insertEntry k a rest

variable {l : List (κ × α)}

theorem mem_insertEntry (h : e ∈ insertEntry k a l) : e = (k, a) ∨ e ∈ l := by
  induction l with
  | nil => exact .inl (mem_singleton.mp h)
  | cons f _ ih =>
    rw [insertEntry] at h
    split_ifs at h
    · exact mem_cons.mp h
    · rcases mem_cons.mp h with rfl | h
      · exact .inl rfl
      · exact .inr (mem_cons_of_mem f h)
    · rcases mem_cons.mp h with rfl | h
      · exact .inr mem_cons_self
      · exact (ih h).imp_right (mem_cons_of_mem f)

theorem insertEntry_sorted (k : κ) (a : α) (h : l.Pairwise fun e f => e.1 < f.1) :
    (insertEntry k a l).Pairwise fun e f => e.1 < f.1 := by
  induction l with
  | nil => exact pairwise_singleton _ _
  | cons _ _ ih =>
    obtain ⟨hf, hrest⟩ := pairwise_cons.mp h
    rw [insertEntry]
    split_ifs with hlt heq
    · refine pairwise_cons.mpr ⟨?_, h⟩
      intro e he
      rcases mem_cons.mp he with rfl | he
      · exact hlt
      · exact lt_trans hlt (hf e he)
    · refine pairwise_cons.mpr ⟨?_, hrest⟩
      intro e he
      exact heq ▸ hf e he
    · refine pairwise_cons.mpr ⟨?_, ih hrest⟩
      intro e he
      rcases mem_insertEntry he with rfl | he
      · exact lt_of_le_of_ne (not_lt.mp hlt) (Ne.symm heq)
      · exact hf e he

theorem insertEntry_perm (a : α) (h : ∀ e ∈ l, e.1 ≠ k) :
    (insertEntry k a l).Perm ((k, a) :: l) := by
  induction l with
  | nil => exact .refl _
  | cons f _ ih =>
    rw [insertEntry]
    split_ifs with hlt heq
    · exact .refl _
    · exact absurd heq.symm (h f mem_cons_self)
    · have hrest := ih fun e he => h e (mem_cons_of_mem f he)
      exact (hrest.cons f).trans (.swap _ _ _)

end Entries

namespace SortedMap

def empty : SortedMap κ α :=
  ⟨[], .nil⟩

def values (m : SortedMap κ α) : List α :=
  m.entries.map (·.2)

def insert (m : SortedMap κ α) (k : κ) (a : α) : SortedMap κ α :=
  ⟨insertEntry k a m.entries, insertEntry_sorted k a m.sorted⟩

def get? (m : SortedMap κ α) (k : κ) : Option α :=
  (m.entries.find? (·.1 = k)).map (·.2)

def erase (m : SortedMap κ α) (k : κ) : SortedMap κ α :=
  ⟨m.entries.filter (·.1 ≠ k), m.sorted.filter _⟩

/-- The first entry with a key greater than `k`. -/
def firstAbove (m : SortedMap κ α) (k : κ) : Option (κ × α) :=
  m.entries.find? (k < ·.1)

@[simp] theorem values_empty : (empty : SortedMap κ α).values = [] :=
  rfl

variable {m : SortedMap κ α}

theorem eq_empty_of_entries (h : m.entries = []) : m = empty := by
  obtain ⟨_, _⟩ := m
  cases h
  rfl

theorem mem_of_get? (h : m.get? k = some a) :
    (k, a) ∈ m.entries := by
  obtain ⟨⟨j, b⟩, hfind, rfl⟩ := Option.map_eq_some_iff.mp h
  have hj : j = k := by simpa using find?_some hfind
  exact hj ▸ mem_of_find?_eq_some hfind

theorem mem_insert (h : e ∈ (m.insert k a).entries) : e = (k, a) ∨ e ∈ m.entries :=
  mem_insertEntry h

theorem mem_erase :
    e ∈ (m.erase k).entries ↔ e ∈ m.entries ∧ e.1 ≠ k := by
  simp [erase, mem_filter]

theorem mem_of_firstAbove (h : m.firstAbove k = some e) : e ∈ m.entries ∧ k < e.1 :=
  ⟨mem_of_find?_eq_some h, by simpa using find?_some h⟩

/-- No entry above `k` comes before the first one. -/
theorem firstAbove_le {f : κ × α} (h : m.firstAbove k = some e)
    (hf : f ∈ m.entries) (hlt : k < f.1) : e.1 ≤ f.1 := by
  obtain ⟨-, _, _, heq, hbefore⟩ := find?_eq_some_iff_append.mp h
  have hsorted := m.sorted
  rw [heq] at hf hsorted
  rcases mem_append.mp hf with hf | hf
  · exact absurd hlt (by simpa using hbefore f hf)
  · rcases mem_cons.mp hf with rfl | hf
    · exact le_rfl
    · exact le_of_lt ((pairwise_cons.mp (pairwise_append.mp hsorted).2.1).1 f hf)

theorem eq_of_mem {b : α} (ha : (k, a) ∈ m.entries)
    (hb : (k, b) ∈ m.entries) : a = b := by
  have hne : m.entries.Pairwise fun e f => e.1 = f.1 → e = f :=
    m.sorted.imp fun h heq => absurd heq (ne_of_lt h)
  have hflip : m.entries.Pairwise (flip fun e f => e.1 = f.1 → e = f) :=
    m.sorted.imp fun h heq => absurd heq (ne_of_gt h)
  exact congrArg Prod.snd
    (List.Pairwise.forall_of_forall_of_flip (fun _ _ _ => rfl) hne hflip ha hb rfl)

theorem get?_of_mem (h : (k, a) ∈ m.entries) :
    m.get? k = some a := by
  have hsome : (m.entries.find? (·.1 = k)).isSome :=
    find?_isSome.mpr ⟨(k, a), h, by simp⟩
  obtain ⟨b, hb⟩ : ∃ b, m.get? k = some b := by
    rw [← Option.isSome_iff_exists, get?, Option.isSome_map]
    exact hsome
  rw [hb, eq_of_mem (mem_of_get? hb) h]

theorem values_insert_perm (a : α)
    (h : ∀ e ∈ m.entries, e.1 ≠ k) : (m.insert k a).values.Perm (a :: m.values) :=
  (insertEntry_perm a h).map _

theorem entries_erase_perm (h : (k, a) ∈ m.entries) :
    m.entries.Perm ((k, a) :: (m.erase k).entries) := by
  have hnodup : ∀ n : SortedMap κ α, n.entries.Nodup :=
    fun n => n.sorted.imp fun hlt heq => ne_of_lt hlt (congrArg Prod.fst heq)
  have hnew : (k, a) ∉ (m.erase k).entries := fun hk => (mem_erase.mp hk).2 rfl
  refine (perm_ext_iff_of_nodup (hnodup m) (nodup_cons.mpr ⟨hnew, hnodup _⟩)).mpr ?_
  rintro ⟨j, b⟩
  rw [mem_cons, mem_erase]
  constructor
  · intro hmem
    rcases eq_or_ne j k with rfl | hne
    · exact .inl (Prod.ext rfl (eq_of_mem hmem h))
    · exact .inr ⟨hmem, hne⟩
  · rintro (heq | ⟨hmem, -⟩)
    · exact heq ▸ h
    · exact hmem

theorem values_erase_perm (h : m.get? k = some a) :
    m.values.Perm (a :: (m.erase k).values) :=
  (entries_erase_perm (mem_of_get? h)).map _

end SortedMap

end Quac.Lib.SortedMaps
