import Mathlib.Order.Fin.Basic
import Quac.Lib.BoundedQueue
import Quac.Lib.Transition

/-!
The loop of `run_engine` against the threads that feed its queues.  Every load,
store, push, pop, park and unpark is a step of its own, and any thread may take
the next one.
-/

namespace Quac.EngineTile

open Function Lib.BoundedQueue Lib.Transition

def spinIters : Nat := 200

/-- The call sites of `run_once` in `run_engine`. -/
inductive Call
  | first
  | spin (idle : Nat) (anyWork : Bool)
  | recheck
deriving DecidableEq

/-- `run_once` pops the receive queues `0, …, k - 1` and then the command queue,
which has index `k`; what it does after that touches no queue. -/
inductive EnginePc (k : Nat)
  | start
  | pop (call : Call) (queue : Fin (k + 1)) (didWork : Bool)
  | transmit (call : Call) (didWork : Bool)
  | storeParked
  | park
  | clearParked
deriving DecidableEq

def EnginePc.runOnce {k : Nat} (call : Call) : EnginePc k :=
  .pop call 0 false

/-- Where `run_engine` goes on when `run_once` returns. -/
def EnginePc.afterRunOnce {k : Nat} (didWork : Bool) : Call → EnginePc k
  | .first => if didWork then .runOnce .first else .runOnce (.spin 0 false)
  | .spin idle anyWork =>
    let idle := if didWork then 0 else idle + 1
    let anyWork := anyWork || didWork
    if idle < spinIters then .runOnce (.spin idle anyWork)
    else if anyWork then .runOnce .first
    else .storeParked
  | .recheck => if didWork then .clearParked else .park

/-- The three ways to feed the engine: a network reader, `ConnState::send_cmd`
and `SendStream::poll_write`. -/
inductive Channel (k : Nat)
  | reader (queue : Fin k)
  | sendCmd
  | pollWrite

def Channel.queue {k : Nat} : Channel k → Fin (k + 1)
  | .reader queue => queue.castSucc
  | .sendCmd | .pollWrite => Fin.last k

/-- Only `send_cmd` goes on to wake the engine when its push failed. -/
def Channel.wakesWhenFull {k : Nat} : Channel k → Bool
  | .sendCmd => true
  | .reader _ | .pollWrite => false

inductive ProducerPc
  | idle
  | pushed
  | loaded (isParked : Bool)
deriving DecidableEq

/-- `serial` counts the push-and-wake sequences the producer has finished. -/
structure Producer where
  pc : ProducerPc
  serial : Nat

structure Item (ι : Type*) where
  producer : ι
  serial : Nat

structure State (ι : Type*) (k : Nat) where
  queues : Fin (k + 1) → ArrayQueue (Item ι)
  isParked : Bool
  /-- The engine thread has published its handle. -/
  engineThread : Bool
  /-- The engine thread's unpark token. -/
  token : Bool
  engine : EnginePc k
  producers : ι → Producer

inductive Label (ι : Type*) (k : Nat)
  | push (p : ι) (channel : Channel k)
  | load (p : ι)
  | wake (p : ι)
  /-- `otherWork`: whether transmits or timers gave `run_once` work. -/
  | engine (otherWork : Bool)
  /-- `park` returns without a token, spuriously or at its deadline. -/
  | parkReturns

section

variable {ι : Type*} [DecidableEq ι] {k : Nat}

def State.setProducer (s : State ι k) (p : ι) (pr : Producer) : State ι k :=
  { s with producers := Function.update s.producers p pr }

def State.pushItem (s : State ι k) (p : ι) (channel : Channel k) : Option (State ι k) :=
  let pr := s.producers p
  if pr.pc = .idle then
    match (s.queues channel.queue).push ⟨p, pr.serial⟩ with
    | some q =>
      some { s.setProducer p ⟨.pushed, pr.serial⟩ with
        queues := Function.update s.queues channel.queue q }
    | none =>
      some (s.setProducer p
        (if channel.wakesWhenFull then ⟨.pushed, pr.serial⟩ else ⟨.idle, pr.serial + 1⟩))
  else none

def State.loadParked (s : State ι k) (p : ι) : Option (State ι k) :=
  let pr := s.producers p
  if pr.pc = .pushed then some (s.setProducer p ⟨.loaded s.isParked, pr.serial⟩) else none

def State.wakeEngine (s : State ι k) (p : ι) : Option (State ι k) :=
  let pr := s.producers p
  match pr.pc with
  | .loaded isParked =>
    some { s.setProducer p ⟨.idle, pr.serial + 1⟩ with
      token := s.token || (isParked && s.engineThread) }
  | _ => none

def State.engineStep (s : State ι k) (otherWork : Bool) : Option (State ι k) :=
  match s.engine with
  | .start => some { s with engineThread := true, engine := .runOnce .first }
  | .pop call queue didWork =>
    match (s.queues queue).pop with
    | some (_, q) =>
      some { s with
        queues := Function.update s.queues queue q
        engine := .pop call queue true }
    | none =>
      if h : queue.val < k then
        some { s with engine := .pop call ⟨queue.val + 1, by omega⟩ didWork }
      else some { s with engine := .transmit call didWork }
  | .transmit call didWork =>
    some { s with engine := .afterRunOnce (didWork || otherWork) call }
  | .storeParked => some { s with isParked := true, engine := .runOnce .recheck }
  | .park => if s.token then some { s with token := false, engine := .clearParked } else none
  | .clearParked => some { s with isParked := false, engine := .runOnce .first }

def State.step (s : State ι k) : Label ι k → Option (State ι k)
  | .push p channel => s.pushItem p channel
  | .load p => s.loadParked p
  | .wake p => s.wakeEngine p
  | .engine otherWork => s.engineStep otherWork
  | .parkReturns => if s.engine = .park then some { s with engine := .clearParked } else none

def State.Initial (s : State ι k) : Prop :=
  (∀ queue, (s.queues queue).items = []) ∧ s.isParked = false ∧ s.engineThread = false ∧
    s.token = false ∧ s.engine = .start ∧ ∀ p, s.producers p = ⟨.idle, 0⟩

def engineSystem (ι : Type*) [DecidableEq ι] (k : Nat) : System (State ι k) (Label ι k) where
  initial := State.Initial
  step := State.step

/-- The engine thread sleeps and nothing on its way will wake it. -/
def State.Blocked (s : State ι k) : Prop :=
  s.engine = .park ∧ s.token = false

def State.Finished (s : State ι k) (item : Item ι) : Prop :=
  item.serial < (s.producers item.producer).serial

def EnginePc.parkSection : EnginePc k → Bool
  | .pop .recheck _ _ | .transmit .recheck _ | .park | .clearParked => true
  | _ => false

/-- The re-check that precedes `park` has already found the queue empty. -/
def EnginePc.Rechecked (queue : Fin (k + 1)) : EnginePc k → Prop
  | .pop .recheck current _ => queue < current
  | .transmit .recheck _ | .park => True
  | _ => False

/-- The producer of the item is on its way to unpark the engine. -/
def State.Waking (s : State ι k) (item : Item ι) : Prop :=
  (s.producers item.producer).serial = item.serial ∧
    ((s.producers item.producer).pc = .pushed ∨ (s.producers item.producer).pc = .loaded true)

/-- An item that the re-check missed has a producer that saw the flag set. -/
structure State.Inv (s : State ι k) : Prop where
  isParked_eq : s.isParked = s.engine.parkSection
  engineThread : s.engine ≠ .start → s.engineThread = true
  missed : ∀ queue, s.engine.Rechecked queue → ∀ item ∈ (s.queues queue).items,
    s.token = true ∨ s.Waking item

theorem EnginePc.parkSection_of_rechecked {pc : EnginePc k} {queue : Fin (k + 1)}
    (h : pc.Rechecked queue) : pc.parkSection = true := by
  cases pc with
  | pop call => cases call <;> simp_all [Rechecked, parkSection]
  | transmit call => cases call <;> simp_all [Rechecked, parkSection]
  | start | storeParked | park | clearParked => simp_all [Rechecked, parkSection]

theorem EnginePc.afterRunOnce_parkSection (didWork : Bool) (call : Call) :
    (afterRunOnce didWork call : EnginePc k).parkSection =
      (transmit call didWork : EnginePc k).parkSection := by
  unfold afterRunOnce
  split
  · split <;> rfl
  · dsimp only
    split_ifs <;> rfl
  · split <;> rfl

theorem EnginePc.rechecked_of_afterRunOnce {didWork : Bool} {call : Call} {queue : Fin (k + 1)}
    (h : (afterRunOnce didWork call : EnginePc k).Rechecked queue) :
    (transmit call didWork : EnginePc k).Rechecked queue := by
  cases call with
  | recheck => trivial
  | first | spin =>
    have := parkSection_of_rechecked h
    rw [afterRunOnce_parkSection] at this
    simp [parkSection] at this

variable {s : State ι k}

theorem State.waking_setProducer_of_ne {p : ι} {pr : Producer} {item : Item ι}
    (hne : item.producer ≠ p) (h : s.Waking item) : (s.setProducer p pr).Waking item := by
  simpa only [Waking, setProducer, update_of_ne hne] using h

variable {s' : State ι k}

theorem State.Inv.pushItem {p : ι} {channel : Channel k} (h : s.Inv)
    (hstep : s.pushItem p channel = some s') : s'.Inv := by
  unfold State.pushItem at hstep
  dsimp only at hstep
  split at hstep
  · rename_i hidle
    -- An idle producer has no item on its way, so changing it disturbs no other item.
    have hothers (pr : Producer) (item : Item ι) (hitem : s.Waking item) :
        (s.setProducer p pr).Waking item := by
      apply waking_setProducer_of_ne ?_ hitem
      rintro rfl
      rcases hitem with ⟨-, hpc | hpc⟩ <;> simp [hidle] at hpc
    split at hstep
    · rename_i q hpush
      obtain ⟨-, -, hitems⟩ := ArrayQueue.push_eq_some hpush
      cases hstep
      refine { h with missed := ?_ }
      intro queue hqueue item hitem
      by_cases hold : item ∈ (s.queues queue).items
      · exact (h.missed queue hqueue item hold).imp_right (hothers _ _)
      · obtain rfl : item = ⟨p, (s.producers p).serial⟩ := by
          dsimp only at hitem
          rcases eq_or_ne queue channel.queue with rfl | hne
          · rw [update_self, hitems] at hitem
            simpa [hold] using hitem
          · rw [update_of_ne hne] at hitem
            exact absurd hitem hold
        refine .inr ⟨?_, .inl ?_⟩ <;> simp [setProducer]
    · cases hstep
      exact { h with missed := fun queue hqueue item hitem =>
        (h.missed queue hqueue item hitem).imp_right (hothers _ _) }
  · simp at hstep

theorem State.Inv.loadParked {p : ι} (h : s.Inv) (hstep : s.loadParked p = some s') : s'.Inv := by
  unfold State.loadParked at hstep
  dsimp only at hstep
  split at hstep
  · cases hstep
    refine { h with missed := ?_ }
    intro queue hqueue item hitem
    refine (h.missed queue hqueue item hitem).imp_right fun hwaking => ?_
    rcases eq_or_ne item.producer p with rfl | hne
    · have hparked : s.isParked = true := by
        rw [h.isParked_eq]
        exact EnginePc.parkSection_of_rechecked hqueue
      refine ⟨?_, .inr ?_⟩
      · simpa [setProducer] using hwaking.1
      · simp [setProducer, hparked]
    · exact waking_setProducer_of_ne hne hwaking
  · simp at hstep

theorem State.Inv.wakeEngine {p : ι} (h : s.Inv) (hstep : s.wakeEngine p = some s') : s'.Inv := by
  unfold State.wakeEngine at hstep
  dsimp only at hstep
  split at hstep
  · rename_i isParked hpc
    cases hstep
    refine { h with missed := ?_ }
    intro queue hqueue item hitem
    rcases h.missed queue hqueue item hitem with htoken | hwaking
    · exact .inl (by simp [htoken])
    · rcases eq_or_ne item.producer p with rfl | hne
      · have hthread : s.engineThread = true := by
          apply h.engineThread
          rintro hstart
          exact absurd hqueue (by simp [setProducer, hstart, EnginePc.Rechecked])
        rcases hwaking.2 with hpushed | hloaded
        · simp [hpc] at hpushed
        · obtain rfl : isParked = true := by simpa [hpc] using hloaded
          simp [hthread]
      · exact .inr (waking_setProducer_of_ne hne hwaking)
  · simp at hstep

omit [DecidableEq ι] in
theorem State.Inv.engineStep {otherWork : Bool} (h : s.Inv)
    (hstep : s.engineStep otherWork = some s') : s'.Inv := by
  unfold State.engineStep at hstep
  split at hstep
  case h_1 hpc =>
    cases hstep
    refine ⟨?_, fun _ => rfl, fun queue hqueue => hqueue.elim⟩
    rw [h.isParked_eq, hpc]
    rfl
  case h_2 call current didWork hpc =>
    have hthread : s.engineThread = true := h.engineThread (by simp [hpc])
    have hparked (pc : EnginePc k) (heq : pc.parkSection = s.engine.parkSection) :
        s.isParked = pc.parkSection := h.isParked_eq.trans heq.symm
    split at hstep
    · cases hstep
      refine ⟨hparked _ ?_, fun _ => hthread, ?_⟩
      · cases call <;> simp [hpc, EnginePc.parkSection]
      · intro queue hqueue item hitem
        have hne : queue ≠ current := by
          cases call with
          | recheck => exact ne_of_lt hqueue
          | first | spin => exact hqueue.elim
        dsimp only at hitem
        rw [update_of_ne hne] at hitem
        refine h.missed queue ?_ item hitem
        rw [hpc]
        cases call <;> exact hqueue
    · rename_i hpop
      have hempty := ArrayQueue.pop_eq_none hpop
      -- The queue just found empty joins those already re-checked.
      have hmissed (queue : Fin (k + 1)) (hle : queue ≤ current) (hcall : call = .recheck) :
          ∀ item ∈ (s.queues queue).items, s.token = true ∨ s.Waking item := by
        intro item hitem
        rcases hle.lt_or_eq with hlt | rfl
        · refine h.missed queue ?_ item hitem
          rw [hpc, hcall]
          exact hlt
        · simp [hempty] at hitem
      split at hstep
      all_goals
        cases hstep
        refine ⟨hparked _ ?_, fun _ => hthread, fun queue hqueue => ?_⟩
        · cases call <;> simp [hpc, EnginePc.parkSection]
        · cases call with
          | recheck =>
            apply hmissed queue ?_ rfl
            simp only [EnginePc.Rechecked, Fin.lt_def] at hqueue
            exact Fin.le_def.mpr (by omega)
          | first | spin => exact hqueue.elim
  case h_3 call didWork hpc =>
    cases hstep
    refine ⟨?_, fun _ => h.engineThread (by simp [hpc]), ?_⟩
    · rw [EnginePc.afterRunOnce_parkSection, h.isParked_eq, hpc]
      cases call <;> rfl
    · intro queue hqueue
      apply h.missed queue
      rw [hpc]
      have := EnginePc.rechecked_of_afterRunOnce hqueue
      cases call <;> exact this
  case h_4 hpc =>
    cases hstep
    exact ⟨rfl, fun _ => h.engineThread (by simp [hpc]), fun _ hqueue => by cases hqueue⟩
  case h_5 hpc =>
    split at hstep
    · cases hstep
      refine ⟨?_, fun _ => h.engineThread (by simp [hpc]), fun queue hqueue => hqueue.elim⟩
      rw [h.isParked_eq, hpc]
      rfl
    · simp at hstep
  case h_6 hpc =>
    cases hstep
    exact ⟨rfl, fun _ => h.engineThread (by simp [hpc]), fun queue hqueue => hqueue.elim⟩

theorem State.Inv.step {a : Label ι k} (h : s.Inv) (hstep : s.step a = some s') : s'.Inv := by
  cases a with
  | push => exact h.pushItem hstep
  | load => exact h.loadParked hstep
  | wake => exact h.wakeEngine hstep
  | engine => exact h.engineStep hstep
  | parkReturns =>
    simp only [State.step] at hstep
    split at hstep
    · rename_i hpc
      cases hstep
      refine ⟨?_, fun _ => h.engineThread (by simp [hpc]), fun queue hqueue => hqueue.elim⟩
      rw [h.isParked_eq, hpc]
      rfl
    · simp at hstep

omit [DecidableEq ι] in
theorem State.Initial.inv (h : s.Initial) : s.Inv := by
  obtain ⟨hempty, hparked, -, -, hpc, -⟩ := h
  refine ⟨by rw [hparked, hpc]; rfl, fun hne => absurd hpc hne, ?_⟩
  intro queue _ item hitem
  simp [hempty] at hitem

theorem inv_of_reachable (hs : (engineSystem ι k).Reachable s) : s.Inv := by
  refine System.Reachable.invariant ?_ ?_ hs
  · intro s hinitial
    exact State.Initial.inv hinitial
  · intro s a s' hinv hstep
    exact hinv.step hstep

/-- The engine thread never sleeps without a token on an item whose producer has
done its part. -/
theorem not_blocked_of_finished {s : State ι k} (hs : (engineSystem ι k).Reachable s)
    (hblocked : s.Blocked) (queue : Fin (k + 1)) {item : Item ι}
    (hitem : item ∈ (s.queues queue).items) : ¬ s.Finished item := by
  obtain ⟨hpc, htoken⟩ := hblocked
  have hrechecked : s.engine.Rechecked queue := by
    rw [hpc]
    trivial
  rcases (inv_of_reachable hs).missed queue hrechecked item hitem with htrue | hwaking
  · simp [htoken] at htrue
  · rw [State.Finished, hwaking.1]
    exact lt_irrefl _

end

def idleEngine : State Unit 0 where
  queues _ := .new 4096
  isParked := false
  engineThread := false
  token := false
  engine := .start
  producers _ := ⟨.idle, 0⟩

/-- The engine went to sleep, and then a write was pushed whose producer has not
looked at the flag yet. -/
def sleepingEngine : State Unit 0 where
  queues := Function.update (fun _ => .new 4096) 0 ⟨4096, [⟨(), 0⟩], by decide⟩
  isParked := true
  engineThread := true
  token := false
  engine := .park
  producers := Function.update (fun _ => ⟨.idle, 0⟩) () ⟨.pushed, 0⟩

set_option maxRecDepth 10000 in
theorem sleepingEngine_reachable : (engineSystem Unit 0).Reachable sleepingEngine := by
  have hidle : (engineSystem Unit 0).Reachable idleEngine :=
    .initial ⟨fun _ => rfl, rfl, rfl, rfl, rfl, fun _ => rfl⟩
  exact hidle.of_run
    (show (engineSystem Unit 0).run idleEngine
      (List.replicate (2 * spinIters + 6) (.engine false) ++ [.push () .pollWrite]) = _ from rfl)

theorem sleepingEngine_not_finished : ¬ sleepingEngine.Finished ⟨(), 0⟩ :=
  not_blocked_of_finished sleepingEngine_reachable ⟨rfl, rfl⟩ 0 (List.mem_singleton.mpr rfl)

end Quac.EngineTile
