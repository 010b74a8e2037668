import Mathlib.Order.Basic
import Quac.Identifiers

/-!
The timers of a connection, `connection/timer.rs`.
-/

namespace Quac.Timers

open Identifiers

inductive Timer
  | lossDetection
  | idle
  | close
  | keyDiscard
  | pathValidation
  | keepAlive
  | pacing
  | pushNewCid
  | maxAckDelay
deriving DecidableEq

def Timer.values : List Timer :=
  [.lossDetection, .idle, .close, .keyDiscard, .pathValidation, .keepAlive, .pacing, .pushNewCid,
    .maxAckDelay]

/-- When each timer goes off; `none` for one that is stopped. -/
def TimerTable := Timer → Option Instant

namespace TimerTable

def empty : TimerTable :=
  fun _ => none

def get (t : TimerTable) (timer : Timer) : Option Instant :=
  t timer

def set (t : TimerTable) (timer : Timer) (time : Instant) : TimerTable :=
  Function.update t timer (some time)

def stop (t : TimerTable) (timer : Timer) : TimerTable :=
  Function.update t timer none

def nextTimeout (t : TimerTable) : Option Instant :=
  (Timer.values.filterMap t).min?

def isExpired (t : TimerTable) (timer : Timer) (now : Instant) : Bool :=
  (t timer).any fun time => decide (time ≤ now)

theorem nextTimeout_le {t : TimerTable} {timer : Timer} {time : Instant}
    (h : t.get timer = some time) : ∃ next, t.nextTimeout = some next ∧ next ≤ time := by
  have hmem : time ∈ Timer.values.filterMap t := by
    refine List.mem_filterMap.mpr ⟨timer, ?_, h⟩
    cases timer <;> simp [Timer.values]
  cases hmin : (Timer.values.filterMap t).min? with
  | none =>
    rw [List.min?_eq_none_iff.mp hmin] at hmem
    simp at hmem
  | some next => exact ⟨next, hmin, (List.min?_eq_some_iff.mp hmin).2 time hmem⟩

end TimerTable

/-- Changes that the parts of a connection outside this model make to its timers;
they never touch the close timer. -/
structure Rearm where
  updates : List (Timer × Option Instant)
  not_close : ∀ u ∈ updates, u.1 ≠ .close

def Rearm.none : Rearm :=
  ⟨[], by simp⟩

def Rearm.apply (r : Rearm) (t : TimerTable) : TimerTable :=
  r.updates.foldl (fun t u => Function.update t u.1 u.2) t

end Quac.Timers
