import Mathlib.Data.List.Basic
import Mathlib.Tactic.TypeStar

/-!
Set representations that may err on the side of membership.
-/

namespace Quac.Lib.Membership

/-- An approximate set of `α` kept in a `β`: what was put in is always found
again, what was not may be found as well. -/
structure ApproximateSet (α β : Type*) where
  contains : β → α → Bool
  /-- The second part tells whether the element was already found. -/
  insert : β → α → β × Bool
  insert_snd (b : β) (a : α) : (insert b a).2 = contains b a
  contains_insert_self (b : β) (a : α) : contains (insert b a).1 a = true
  contains_insert (b : β) (a x : α) : contains b x = true → contains (insert b a).1 x = true

namespace ApproximateSet

variable {α β : Type*} (lib : ApproximateSet α β)

def insertAll (b : β) (as : List α) : β :=
  as.foldl (fun b a => (lib.insert b a).1) b

theorem contains_insertAll_of_contains {b : β} {x : α} (h : lib.contains b x = true)
    (as : List α) : lib.contains (lib.insertAll b as) x = true := by
  induction as generalizing b with
  | nil => exact h
  | cons a _ ih => exact ih (lib.contains_insert b a x h)

theorem contains_insertAll (b : β) {as : List α} {x : α} (h : x ∈ as) :
    lib.contains (lib.insertAll b as) x = true := by
  induction as generalizing b with
  | nil => simp at h
  | cons _ as ih =>
    rcases List.mem_cons.mp h with rfl | h
    · exact lib.contains_insertAll_of_contains (lib.contains_insert_self b x) as
    · exact ih _ h

end ApproximateSet

end Quac.Lib.Membership
