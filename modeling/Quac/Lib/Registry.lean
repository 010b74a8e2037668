import Mathlib.Logic.Function.Basic

/-!
Partial maps whose entries come and go: a key is fresh until its entry is made, and
is not used again after the entry is removed.  What holds of each entry is kept by
changes of one entry and by new entries for fresh keys.
-/

namespace Quac.Lib.Registry

open Function

variable {κ α : Type*}

structure Each (entries : κ → Option α) (fresh N : κ → Prop) (P : κ → α → Prop) : Prop where
  entry : ∀ k x, entries k = some x → P k x
  used : ∀ k, entries k ≠ none → ¬ fresh k
  new : ∀ k, fresh k → N k

variable {entries entries' : κ → Option α} {fresh fresh' N N' : κ → Prop} {P P' : κ → α → Prop}

theorem Each.used_of_eq (h : Each entries fresh N P) {k : κ} {x : α} (hk : entries k = some x) :
    ¬ fresh k :=
  h.used k (by simp [hk])

theorem Each.mono (h : Each entries fresh N P) (hN : ∀ k, N k → N' k)
    (hP : ∀ k x, P k x → P' k x) : Each entries fresh N' P' :=
  ⟨fun k x hk => hP k x (h.entry k x hk), h.used, fun k hk => hN k (h.new k hk)⟩

theorem Each.of_used (h : ∀ k x, entries k = some x → ¬ fresh k ∧ P k x) (hN : ∀ k, N k) :
    Each entries fresh N P := by
  refine ⟨fun k x hk => (h k x hk).2, fun k hk => ?_, fun k _ => hN k⟩
  obtain ⟨x, hx⟩ := Option.ne_none_iff_exists'.mp hk
  exact (h k x hx).1

/-- New entries are made for fresh keys only. -/
theorem Each.grow (h : Each entries fresh N P) (hfresh : ∀ k, fresh' k → fresh k)
    (hentries : ∀ k x, entries' k = some x →
      entries k = some x ∨ fresh k ∧ ¬ fresh' k ∧ (N k → P k x)) :
    Each entries' fresh' N P := by
  refine ⟨fun k x hk => ?_, fun k hk => ?_, fun k hk => h.new k (hfresh k hk)⟩
  · rcases hentries k x hk with hold | ⟨hnew, -, hP⟩
    · exact h.entry k x hold
    · exact hP (h.new k hnew)
  · obtain ⟨x, hx⟩ := Option.ne_none_iff_exists'.mp hk
    rcases hentries k x hx with hold | ⟨-, hnew, -⟩
    · exact fun hk' => h.used_of_eq hold (hfresh k hk')
    · exact hnew

variable [DecidableEq κ] {j k : κ} {x y : α}

theorem update_some_eq_some : update entries k (some x) j = some y ↔
    j = k ∧ x = y ∨ j ≠ k ∧ entries j = some y := by
  rcases eq_or_ne j k with rfl | hne
  · simp
  · simp [hne]

theorem update_none_eq_some : update entries k none j = some y ↔ j ≠ k ∧ entries j = some y := by
  rcases eq_or_ne j k with rfl | hne
  · simp
  · simp [hne]

theorem update_some_eq_none (hk : entries k ≠ none) :
    update entries k (some x) j = none ↔ entries j = none := by
  rcases eq_or_ne j k with rfl | hne
  · simp [hk]
  · simp [hne]

theorem update_none_eq_none : update entries k none j = none ↔ j = k ∨ entries j = none := by
  rcases eq_or_ne j k with rfl | hne
  · simp
  · simp [hne]

theorem isSome_update_none :
    (update entries k none j).isSome = true ↔ (entries j).isSome = true ∧ j ≠ k := by
  rcases eq_or_ne j k with rfl | hne
  · simp
  · simp [hne]

/-- What holds of a key in use may change with its entry. -/
theorem Each.put (h : Each entries fresh N P) (hk : entries k ≠ none)
    (hN : ∀ j, j ≠ k → N j → N' j) (hP : ∀ j, j ≠ k → ∀ y, P j y → P' j y) {entry : Option α}
    (hx : ∀ x, entry = some x → P' k x) : Each (update entries k entry) fresh N' P' := by
  have hused := h.used k hk
  refine ⟨fun j y hj => ?_, fun j hj => ?_, fun j hj => hN j ?_ (h.new j hj)⟩
  · rcases eq_or_ne j k with rfl | hne
    · exact hx y (by simpa using hj)
    · exact hP j hne y (h.entry j y (by simpa [hne] using hj))
  · rcases eq_or_ne j k with rfl | hne
    · exact hused
    · exact h.used j (by simpa [hne] using hj)
  · rintro rfl
    exact hused hj

theorem Each.set (h : Each entries fresh N P) (hk : entries k ≠ none)
    (hN : ∀ j, j ≠ k → N j → N' j) (hP : ∀ j, j ≠ k → ∀ y, P j y → P' j y) (hx : P' k x) :
    Each (update entries k (some x)) fresh N' P' :=
  h.put hk hN hP fun _ h => Option.some.inj h ▸ hx

theorem Each.erase (h : Each entries fresh N P) (hk : entries k ≠ none)
    (hN : ∀ j, j ≠ k → N j → N' j) (hP : ∀ j, j ≠ k → ∀ y, P j y → P' j y) :
    Each (update entries k none) fresh N' P' :=
  h.put hk hN hP (by simp)

end Quac.Lib.Registry
