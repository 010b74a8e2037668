import Mathlib.Algebra.Ring.Nat
import Quac.Lib.Transition

/-!
The bandwidth estimate of BBR, `congestion/bbr/bw_estimation.rs`, and its filter for the
maximum of a window of rounds, `congestion/bbr/min_max.rs`.
-/

namespace Quac.Bandwidth

open Lib.Transition

structure MinMaxSample where
  time : Nat
  value : Nat

structure MinMax where
  window : Nat
  first : MinMaxSample
  second : MinMaxSample
  third : MinMaxSample

namespace MinMax

def new : MinMax :=
  ⟨10, ⟨0, 0⟩, ⟨0, 0⟩, ⟨0, 0⟩⟩

def get (m : MinMax) : Nat :=
  m.first.value

def fill (m : MinMax) (sample : MinMaxSample) : MinMax :=
  { m with first := sample, second := sample, third := sample }

def subwinUpdate (m : MinMax) (sample : MinMaxSample) : MinMax :=
  let dt := sample.time - m.first.time
  if m.window < dt then
    let m := { m with first := m.second, second := m.third, third := sample }
    if m.window < sample.time - m.first.time then
      { m with first := m.second, second := m.third, third := sample }
    else m
  else if m.second.time = m.first.time ∧ m.window / 4 < dt then
    { m with second := sample, third := sample }
  else if m.third.time = m.second.time ∧ m.window / 2 < dt then { m with third := sample }
  else m

def updateMax (m : MinMax) (currentRound measurement : Nat) : MinMax :=
  let sample := ⟨currentRound, measurement⟩
  if m.first.value = 0 ∨ m.first.value ≤ measurement ∨ m.window < currentRound - m.third.time then
    m.fill sample
  else if m.second.value ≤ measurement then
    subwinUpdate { m with second := sample, third := sample } sample
  else if m.third.value ≤ measurement then subwinUpdate { m with third := sample } sample
  else m.subwinUpdate sample

theorem updateMax_of_lt {m : MinMax} {measurement : Nat} (h : m.get < measurement) (round : Nat) :
    m.updateMax round measurement = m.fill ⟨round, measurement⟩ :=
  if_pos (.inr (.inl (le_of_lt h)))

end MinMax

structure BandwidthEstimation where
  totalAcked : Nat
  prevTotalAcked : Nat
  ackedTime : Option Nat
  prevAckedTime : Option Nat
  totalSent : Nat
  prevTotalSent : Nat
  sentTime : Option Nat
  prevSentTime : Option Nat
  maxFilter : MinMax

namespace BandwidthEstimation

def new : BandwidthEstimation :=
  ⟨0, 0, none, none, 0, 0, none, none, .new⟩

def onSent (e : BandwidthEstimation) (now bytes : Nat) : BandwidthEstimation :=
  { e with
    prevTotalSent := e.totalSent
    totalSent := e.totalSent + bytes
    prevSentTime := e.sentTime
    sentTime := some now }

/-- Times are in nanoseconds. -/
def bwFromDelta (bytes delta : Nat) : Option Nat :=
  if delta = 0 then none else some (bytes * 1000000000 / delta)

def noteAck (e : BandwidthEstimation) (now bytes : Nat) : BandwidthEstimation :=
  { e with
    prevTotalAcked := e.totalAcked
    totalAcked := e.totalAcked + bytes
    prevAckedTime := e.ackedTime
    ackedTime := some now }

/-- The bandwidth that the acknowledgement noted last shows, once two packets are sent. -/
def bandwidth (e : BandwidthEstimation) (now : Nat) : Option Nat :=
  e.prevSentTime.map fun prevSentTime =>
    let sendRate := match e.sentTime with
      | some sentTime =>
        if prevSentTime < sentTime then
          (bwFromDelta (e.totalSent - e.prevTotalSent) (sentTime - prevSentTime)).getD 0
        else 2 ^ 64 - 1
      | none => 2 ^ 64 - 1
    let ackRate := match e.prevAckedTime with
      | some prevAckedTime =>
        (bwFromDelta (e.totalAcked - e.prevTotalAcked) (now - prevAckedTime)).getD 0
      | none => 0
    min sendRate ackRate

def onAck (e : BandwidthEstimation) (now bytes round : Nat) (appLimited : Bool) :
    BandwidthEstimation :=
  let e := e.noteAck now bytes
  match e.bandwidth now with
  | none => e
  | some bandwidth =>
    if !appLimited && e.maxFilter.get < bandwidth then
      { e with maxFilter := e.maxFilter.updateMax round bandwidth }
    else e

def getEstimate (e : BandwidthEstimation) : Nat :=
  e.maxFilter.get

end BandwidthEstimation

inductive Label
  | sent (now bytes : Nat)
  | ack (now bytes round : Nat) (appLimited : Bool)

/-- Times and rounds may also go back; what is subtracted is then cut off at zero. -/
def estimating : System BandwidthEstimation Label where
  initial e := e = .new
  step e
    | .sent now bytes => some (e.onSent now bytes)
    | .ack now bytes round appLimited => some (e.onAck now bytes round appLimited)

/-- The samples of acknowledgements that the application did not limit, the newest first. -/
def observe (e : BandwidthEstimation) : Label → List MinMaxSample → List MinMaxSample
  | .ack now bytes round false, samples =>
    (((e.noteAck now bytes).bandwidth now).map (⟨round, ·⟩)).toList ++ samples
  | _, samples => samples

def history : System (BandwidthEstimation × List MinMaxSample) Label :=
  estimating.observed [] observe

/-- The estimate is reached by a sample of the last ten rounds, and by the newest one. -/
structure Tracks (round estimate : Nat) (samples : List MinMaxSample) : Prop where
  recent : estimate = 0 ∨ ∃ sample ∈ samples, round ≤ sample.time + 10 ∧ estimate ≤ sample.value
  newest : ∀ sample ∈ samples.head?, sample.value ≤ estimate

/-- The estimate was raised last in one of the last ten rounds. -/
def RaisedLately (m : MinMax) (round : Nat) : Prop :=
  m.get = 0 ∨ round ≤ m.first.time + 10

/-- The filter holds the largest of all samples. -/
structure Peak (m : MinMax) (samples : List MinMaxSample) : Prop where
  bounds : ∀ sample ∈ samples, sample.value ≤ m.get
  sampled : m.get = 0 ∨ m.first ∈ samples

theorem peak_ack {e : BandwidthEstimation} {samples : List MinMaxSample}
    (h : Peak e.maxFilter samples) (now bytes round : Nat) :
    Peak (e.onAck now bytes round false).maxFilter
        (observe e (.ack now bytes round false) samples) ∧
      (RaisedLately e.maxFilter round →
        RaisedLately (e.onAck now bytes round false).maxFilter round) := by
  have hfilter : (e.noteAck now bytes).maxFilter = e.maxFilter := rfl
  simp only [BandwidthEstimation.onAck, observe]
  rcases (e.noteAck now bytes).bandwidth now with _ | bandwidth
  · exact ⟨h, id⟩
  by_cases hlt : e.maxFilter.get < bandwidth
  · simp only [hfilter, hlt, MinMax.updateMax_of_lt hlt, Bool.not_false, decide_true]
    refine ⟨⟨fun sample hmem => ?_, .inr List.mem_cons_self⟩, fun _ => .inr (Nat.le_add_right _ _)⟩
    rcases List.mem_cons.mp hmem with rfl | hold
    · exact le_rfl
    · exact le_of_lt (lt_of_le_of_lt (h.bounds sample hold) hlt)
  · simp only [hfilter, hlt, decide_false, Bool.and_false, Bool.false_eq_true, if_false]
    refine ⟨⟨fun sample hmem => ?_, h.sampled.imp_right (List.mem_cons_of_mem _)⟩,
      id⟩
    rcases List.mem_cons.mp hmem with rfl | hold
    · exact le_of_not_gt hlt
    · exact h.bounds sample hold

variable {x x' : BandwidthEstimation × List MinMaxSample}

theorem peak_of_reachable (hx : history.Reachable x) : Peak x.1.maxFilter x.2 := by
  induction hx with
  | initial h =>
    rw [h.1, h.2]
    exact ⟨fun _ hmem => absurd hmem List.not_mem_nil, .inl rfl⟩
  | @step x _ label _ _ hstep ih =>
    obtain ⟨hstep, heq⟩ := System.observed_step_eq_some hstep
    rw [heq]
    rcases label with ⟨now, bytes⟩ | ⟨now, bytes, round, _ | _⟩ <;> rw [← Option.some.inj hstep]
    · exact ih
    · exact (peak_ack ih now bytes round).1
    · have hsame : (x.1.onAck now bytes round true).maxFilter = x.1.maxFilter := by
        simp only [BandwidthEstimation.onAck]
        split <;> rfl
      rw [hsame]
      exact ih

/-- As long as the estimate was raised in the last ten rounds, it is the largest bandwidth
that they have shown. -/
theorem estimate_tracks_recent (hx : history.Reachable x) {now bytes round : Nat}
    (hlately : RaisedLately x.1.maxFilter round)
    (hstep : history.step x (.ack now bytes round false) = some x') :
    Tracks round x'.1.getEstimate x'.2 := by
  obtain ⟨hack, heq⟩ := System.observed_step_eq_some hstep
  obtain ⟨⟨hbounds, hsampled⟩, hraised⟩ := peak_ack (peak_of_reachable hx) now bytes round
  rw [heq, ← Option.some.inj hack]
  refine ⟨?_, fun sample hmem => hbounds sample (List.mem_of_mem_head? hmem)⟩
  rcases hsampled with hzero | hmem
  · exact .inl hzero
  · exact (hraised hlately).imp_right fun hle => ⟨_, hmem, hle, le_rfl⟩

/-- Two packets are sent, and a burst is acknowledged in the first round. -/
def burst : List Label :=
  [.sent 0 100, .sent 1 100, .ack 10 1 0 false, .ack 11 100 0 false]

theorem burst_tracked : ∃ x x', history.Reachable x ∧
    history.step x (.ack 1011 100 10 false) = some x' ∧ Tracks 10 x'.1.getEstimate x'.2 := by
  have hinitial : history.Reachable (.new, []) := .initial ⟨rfl, rfl⟩
  obtain ⟨x, hx, hfirst, x', hstep⟩ := hinitial.exists_of_run burst (P := fun x =>
    x.1.maxFilter.first.time = 0 ∧ ∃ x', history.step x (.ack 1011 100 10 false) = some x')
    ⟨_, rfl, rfl, _, rfl⟩
  exact ⟨x, x', hx, hstep, estimate_tracks_recent hx (.inr (by simp [hfirst])) hstep⟩

/-- One round later the estimate is still that of the burst, a thousand times what was seen
since. -/
theorem burst_outlives_window : ∃ x x', history.Reachable x ∧
    history.step x (.ack 1011 100 11 false) = some x' ∧ ¬ Tracks 11 x'.1.getEstimate x'.2 := by
  have hinitial : history.Reachable (.new, []) := .initial ⟨rfl, rfl⟩
  obtain ⟨x, hx, x', hstep, hestimate, hsamples⟩ := hinitial.exists_of_run burst (P := fun x =>
    ∃ x', history.step x (.ack 1011 100 11 false) = some x' ∧ x'.1.getEstimate = 100000000000 ∧
      x'.2 = [⟨11, 100000000⟩, ⟨0, 100000000000⟩, ⟨0, 0⟩]) ⟨_, rfl, _, rfl, rfl, rfl⟩
  refine ⟨x, x', hx, hstep, ?_⟩
  rw [hestimate, hsamples]
  rintro ⟨hzero | ⟨sample, hmem, hround, hle⟩, -⟩
  · cases hzero
  · simp only [List.mem_cons, List.not_mem_nil, or_false] at hmem
    rcases hmem with rfl | rfl | rfl <;> simp at hround hle

end Quac.Bandwidth
