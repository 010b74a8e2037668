import Quac.Frames
import Quac.Lib.Rings
import Quac.Lib.Transition

/-!
The connection IDs that the peer has issued: a ring of slots, the window of sequence
numbers that it stands for, and the retirements that NEW_CONNECTION_ID frames bring about.
-/

namespace Quac.RemoteCids

open Cid Coding Frames Function Identifiers Lib.Rings Lib.Transition RecvHalf List Option

abbrev ResetToken := Octets resetTokenSize

abbrev CidData := ConnectionId × Option ResetToken

/-- `CidQueue::LEN`. -/
def len : Nat := 5

instance : NeZero len := ⟨by decide⟩

structure CidQueue where
  buffer : Fin len → Option CidData
  cursor : Fin len
  /-- Sequence number of the active CID, the one at the cursor. -/
  offset : Nat

inductive InsertError
  | retired
  | exceedsLimit

/-- A range of retired sequence numbers, without its end, and the reset token of the new
active CID. -/
abbrev Retirement := (Nat × Nat) × ResetToken

namespace CidQueue

def new (cid : ConnectionId) : CidQueue where
  buffer := Function.update (fun _ => none) 0 (some (cid, none))
  cursor := 0
  offset := 0

/-- `none` is a panic, as in the other operations. -/
def insert (q : CidQueue) (cid : NewConnectionId) :
    Option (Except InsertError (Option Retirement) × CidQueue) :=
  if cid.sequence < q.offset then some (.error .retired, q)
  else
    let index := cid.sequence - q.offset
    let retiredCount := cid.retirePriorTo - q.offset
    if len + retiredCount ≤ index then some (.error .exceedsLimit, q)
    else
      let buffer := Function.update (clear q.buffer q.cursor (min retiredCount len))
        (slot q.cursor index) (some (cid.id, some cid.resetToken))
      if retiredCount = 0 then some (.ok none, { q with buffer })
      else do
        let cursor := slot q.cursor retiredCount
        let (i, _, token) ← (occupied buffer cursor).head?
        let offset := cid.retirePriorTo + i
        let token ← token
        some (.ok (some ((q.offset, min offset (q.offset + len)), token)),
          ⟨buffer, slot cursor i, offset⟩)

def next (q : CidQueue) : Option (Option Retirement × CidQueue) :=
  match (occupied q.buffer q.cursor)[1]? with
  | none => some (none, q)
  | some (i, _, token) => do
    let token ← token
    some (some ((q.offset, q.offset + i), token),
      ⟨Function.update q.buffer q.cursor none, slot q.cursor i, q.offset + i⟩)

def active (q : CidQueue) : Option ConnectionId :=
  (q.buffer q.cursor).map (·.1)

end CidQueue

/-! ### The window -/

/-- The CIDs at hand, by sequence number. -/
structure Window where
  active : Nat
  get : Nat → Option CidData
  present : get active ≠ none
  inside : ∀ seq, get seq ≠ none → active ≤ seq ∧ seq < active + len ∧ seq < 2 ^ 62
  /-- Only the initial CID comes without a token. -/
  tokens : ∀ seq cid, get seq = some (cid, none) → seq = 0

namespace Window

variable {w : Window} {f : NewConnectionId} {seq : Nat}

def kept (w : Window) (f : NewConnectionId) (seq : Nat) : Option CidData :=
  if seq = f.sequence then some (f.id, some f.resetToken)
  else if seq < f.retirePriorTo then none else w.get seq

inductive Insert (w : Window) (f : NewConnectionId) :
    Except InsertError (Option Retirement) → Window → Prop
  | retired (h : f.sequence < w.active) : Insert w f (.error .retired) w
  | exceedsLimit (h : max w.active f.retirePriorTo + len ≤ f.sequence) :
      Insert w f (.error .exceedsLimit) w
  | plain {w' : Window} (hle : w.active ≤ f.sequence) (hlt : f.sequence < w.active + len)
      (hprior : f.retirePriorTo ≤ w.active) (hactive : w'.active = w.active)
      (hget : w'.get = w.kept f) : Insert w f (.ok none) w'
  | retiring {w' : Window} {cid : ConnectionId} {token : ResetToken}
      (hprior : w.active < f.retirePriorTo) (hle : f.retirePriorTo ≤ f.sequence)
      (hlt : f.sequence < f.retirePriorTo + len) (hget : w'.get = w.kept f)
      (htoken : w'.get w'.active = some (cid, some token)) :
      Insert w f (.ok (some ((w.active, min w'.active (w.active + len)), token))) w'

inductive Next (w : Window) : Option Retirement → Window → Prop
  | last (h : ∀ seq, seq ≠ w.active → w.get seq = none) : Next w none w
  | switched {w' : Window} {cid : ConnectionId} {token : ResetToken}
      (hget : w'.get = Function.update w.get w.active none)
      (htoken : w'.get w'.active = some (cid, some token)) :
      Next w (some ((w.active, w'.active), token)) w'

theorem get_eq_none (h : w.active + len ≤ seq) : w.get seq = none := by
  by_contra hsome
  have hinside := w.inside seq hsome
  omega

theorem kept_inside (w : Window) (hle : max w.active f.retirePriorTo ≤ f.sequence)
    (hlt : f.sequence < max w.active f.retirePriorTo + len) (hbound : f.sequence < 2 ^ 62)
    (hseq : w.kept f seq ≠ none) : max w.active f.retirePriorTo ≤ seq ∧
      seq < max w.active f.retirePriorTo + len ∧ seq < 2 ^ 62 := by
  unfold kept at hseq
  split_ifs at hseq with hnew hprior
  · omega
  · exact absurd rfl hseq
  · have hinside := w.inside seq hseq
    omega

theorem kept_tokens {cid : ConnectionId} (h : w.kept f seq = some (cid, none)) : seq = 0 := by
  unfold kept at h
  split_ifs at h
  · cases h
  · exact w.tokens seq cid h

theorem active_lt {w' : Window} (hget : w'.get = update w.get w.active none) :
    w.active < w'.active ∧ w'.active < w.active + len := by
  have hpresent := w'.present
  rw [hget, update_apply] at hpresent
  split_ifs at hpresent with heq
  · exact absurd rfl hpresent
  · have hbounds := w.inside _ hpresent
    omega

theorem prior_le {w' : Window} (hget : w'.get = w.kept f)
    (hprior : f.retirePriorTo ≤ f.sequence) : f.retirePriorTo ≤ w'.active := by
  have hpresent := w'.present
  rw [hget, kept] at hpresent
  split_ifs at hpresent with heq hlt
  · omega
  · exact absurd rfl hpresent
  · exact not_lt.mp hlt

theorem kept_self : w.kept f f.sequence = some (f.id, some f.resetToken) :=
  if_pos rfl

end Window

structure Represents (q : CidQueue) (w : Window) : Prop where
  offset : q.offset = w.active
  slots : ∀ i < len, q.buffer (slot q.cursor i) = w.get (w.active + i)

variable {q : CidQueue} {w : Window} {f : NewConnectionId}

theorem represents_new (cid : ConnectionId) :
    ∃ w : Window, Represents (.new cid) w ∧ w.active = 0 := by
  refine ⟨⟨0, fun seq => if seq = 0 then some (cid, none) else none, by simp, fun seq hseq => ?_,
    fun seq _ h => ?_⟩, ⟨rfl, fun i hi => ?_⟩, rfl⟩
  · have hzero : seq = 0 := by
      by_contra hne
      exact hseq (if_neg hne)
    subst hzero
    decide
  · by_contra hne
    rw [if_neg hne] at h
    cases h
  · have hcases : ∀ i < len, ((slot 0 i : Fin len) = 0 ↔ 0 + i = 0) := by decide
    simp only [CidQueue.new, update_apply]
    exact if_congr (hcases i hi) rfl rfl

/-- The cursor moves on to the first CID that is left. -/
theorem represents_advance {ring : Fin len → Option CidData} {cursor : Fin len} {base : Nat}
    {get : Nat → Option CidData} (hslots : ∀ j < len, ring (slot cursor j) = get (base + j))
    (hinside : ∀ seq, get seq ≠ none → base ≤ seq ∧ seq < base + len ∧ seq < 2 ^ 62)
    (htokens : ∀ seq cid, get seq = some (cid, none) → seq = 0) {i : Nat} {data : CidData}
    {rest : List (Nat × CidData)} (h : occupied ring cursor = (i, data) :: rest) :
    ∃ w : Window, w.get = get ∧ w.active = base + i ∧ get (base + i) = some data ∧
      Represents ⟨ring, slot cursor i, base + i⟩ w := by
  obtain ⟨hi, hdata, hbefore⟩ := occupied_eq_cons h
  rw [hslots i hi] at hdata
  have hempty : ∀ j < i, get (base + j) = none := fun j hj =>
    (hslots j (hj.trans hi)).symm.trans (hbefore j hj)
  have hfirst : ∀ seq, get seq ≠ none → base + i ≤ seq := by
    intro seq hseq
    by_contra hlt
    have hle := (hinside seq hseq).1
    have hnone := hempty (seq - base) (by omega)
    rw [Nat.add_sub_cancel' hle] at hnone
    exact hseq hnone
  refine ⟨⟨base + i, get, by simp [hdata], fun seq hseq => ?_, htokens⟩, rfl, rfl, hdata,
    rfl, fun j hj => ?_⟩
  · have hbounds := hinside seq hseq
    have hle := hfirst seq hseq
    omega
  · dsimp only
    rw [slot_slot, add_assoc]
    rcases Nat.lt_or_ge (i + j) len with hlt | _
    · exact hslots _ hlt
    · -- The slot is one of those that the cursor has passed.
      have hpassed : (i + j) % len < i := by
        simp only [len] at *
        omega
      rw [← slot_mod, hslots _ (hpassed.trans hi), hempty _ hpassed, eq_comm]
      by_contra hsome
      have hbounds := hinside _ hsome
      omega

open Window

theorem slots_insert (h : Represents q w) (hle : max w.active f.retirePriorTo ≤ f.sequence)
    (hlt : f.sequence < max w.active f.retirePriorTo + len) {j : Nat} (hj : j < len) :
    update (clear q.buffer q.cursor (min (f.retirePriorTo - w.active) len))
        (slot q.cursor (f.sequence - w.active)) (some (f.id, some f.resetToken))
        (slot (slot q.cursor (f.retirePriorTo - w.active)) j) =
      w.kept f (max w.active f.retirePriorTo + j) := by
  obtain ⟨n, hn⟩ : ∃ n, n = f.retirePriorTo - w.active := ⟨_, rfl⟩
  have hbase : max w.active f.retirePriorTo = w.active + n := by omega
  rw [hbase] at hle hlt ⊢
  have hindex : slot q.cursor (f.sequence - w.active) =
      slot (slot q.cursor n) (f.sequence - w.active - n) := by
    rw [slot_slot]
    congr 1
    omega
  rw [← hn, hindex, kept]
  by_cases hnew : w.active + n + j = f.sequence
  · have hj' : j = f.sequence - w.active - n := by omega
    rw [if_pos hnew, ← hj', update_self]
  · rw [if_neg hnew, update_of_ne (mt (slot_inj hj (by omega)).mp (by omega)),
      if_neg (by omega), slot_slot, add_assoc]
    rcases Nat.lt_or_ge (n + j) len with hin | _
    · rw [clear_slot (min_le_right _ _) hin, if_neg (by omega), h.slots _ hin]
    · have hcleared : (n + j) % len < min n len := by
        simp only [len] at *
        omega
      rw [← slot_mod, clear_slot (min_le_right _ _) (by omega), if_pos hcleared,
        get_eq_none (by omega)]

theorem Represents.active (h : Represents q w) : q.buffer q.cursor = w.get w.active := by
  have hslot := h.slots 0 (by decide)
  rwa [slot_zero] at hslot

theorem Represents.insert (h : Represents q w) (hprior : f.retirePriorTo ≤ f.sequence)
    (hbound : f.sequence < 2 ^ 62) :
    ∃ r q' w', q.insert f = some (r, q') ∧ Represents q' w' ∧ w.Insert f r w' := by
  unfold CidQueue.insert
  rw [h.offset]
  dsimp only
  by_cases hretired : f.sequence < w.active
  · rw [if_pos hretired]
    exact ⟨_, q, w, rfl, h, .retired hretired⟩
  rw [if_neg hretired]
  by_cases hexceeds : len + (f.retirePriorTo - w.active) ≤ f.sequence - w.active
  · rw [if_pos hexceeds]
    exact ⟨_, q, w, rfl, h, .exceedsLimit (by omega)⟩
  have hle : max w.active f.retirePriorTo ≤ f.sequence := by omega
  have hlt : f.sequence < max w.active f.retirePriorTo + len := by omega
  have hslots := fun j (hj : j < len) => slots_insert h hle hlt hj
  have hinside := fun seq (hseq : w.kept f seq ≠ none) => w.kept_inside hle hlt hbound hseq
  generalize update (clear q.buffer q.cursor _) _ _ = ring at hslots ⊢
  split_ifs with hcount
  · have hbase : max w.active f.retirePriorTo = w.active := by omega
    rw [hbase] at hslots hinside hlt
    rw [hcount, slot_zero] at hslots
    refine ⟨_, _, ⟨w.active, w.kept f, ?_, hinside, fun _ _ => kept_tokens⟩, rfl,
      ⟨rfl, hslots⟩, .plain (by omega) hlt (by omega) rfl rfl⟩
    unfold kept
    split_ifs
    · exact some_ne_none _
    · omega
    · exact w.present
  · have hbase : max w.active f.retirePriorTo = f.retirePriorTo := by omega
    rw [hbase] at hslots hinside hlt
    rcases hfirst : occupied ring _ with _ | ⟨⟨i, _, token⟩, _⟩
    · -- The new CID itself is there.
      have hnone := occupied_eq_nil hfirst (j := f.sequence - f.retirePriorTo) (by omega)
      rw [hslots _ (by omega), Nat.add_sub_cancel' hprior, kept_self] at hnone
      cases hnone
    · obtain ⟨w', hget, hactive, hdata, hrep⟩ :=
        represents_advance hslots hinside (fun _ _ => kept_tokens) hfirst
      cases token with
      | none =>
        have hzero := kept_tokens hdata
        omega
      | some =>
        refine ⟨_, _, w', rfl, hrep, ?_⟩
        rw [← hactive]
        exact .retiring (by omega) hprior hlt hget (by rw [hget, hactive, hdata])

theorem Represents.next (h : Represents q w) :
    ∃ r q' w', q.next = some (r, q') ∧ Represents q' w' ∧ w.Next r w' := by
  have hpresent := w.present
  rw [← h.active] at hpresent
  have hslots : ∀ j < len, update q.buffer q.cursor none (slot q.cursor j) =
      update w.get w.active none (w.active + j) := by
    intro j hj
    rcases Nat.eq_zero_or_pos j with rfl | hpos
    · rw [slot_zero, add_zero, update_self, update_self]
    · rw [update_of_ne (slot_ne hpos hj), update_of_ne (by omega), h.slots j hj]
  have hinside : ∀ seq, update w.get w.active none seq ≠ none →
      seq ≠ w.active ∧ w.get seq ≠ none := by
    intro seq hseq
    rcases eq_or_ne seq w.active with rfl | hne
    · rw [update_self] at hseq
      exact absurd rfl hseq
    · rw [update_of_ne hne] at hseq
      exact ⟨hne, hseq⟩
  unfold CidQueue.next
  rw [occupied_second hpresent]
  rcases hfirst : occupied (update q.buffer q.cursor none) q.cursor with
    _ | ⟨⟨i, cid, token⟩, rest⟩
  · refine ⟨_, q, w, rfl, h, .last fun seq hne => ?_⟩
    by_contra hsome
    have hbounds := w.inside seq hsome
    have hnone := occupied_eq_nil hfirst (j := seq - w.active) (by omega)
    rw [hslots _ (by omega), Nat.add_sub_cancel' hbounds.1, update_of_ne hne] at hnone
    exact hsome hnone
  · have htokens : ∀ seq cid, update w.get w.active none seq = some (cid, none) → seq = 0 := by
      intro seq cid hseq
      have hne := (hinside seq (hseq ▸ some_ne_none _)).1
      rw [update_of_ne hne] at hseq
      exact w.tokens seq cid hseq
    obtain ⟨w', hget, hactive, hdata, hrep⟩ := represents_advance hslots
      (fun seq hseq => w.inside seq (hinside seq hseq).2) htokens hfirst
    rw [h.offset]
    cases token with
    | none =>
      have hzero := htokens _ _ hdata
      have hne := (hinside _ (hdata ▸ some_ne_none _)).1
      omega
    | some =>
      refine ⟨_, _, w', rfl, hrep, ?_⟩
      rw [← hactive]
      exact .switched hget (by rw [hget, hactive, hdata])

/-! ### Runs -/

/-- The queue, with the sequence numbers that were inserted and the ranges reported as
retired. -/
structure Session where
  queue : CidQueue
  inserted : List Nat
  retired : List (Nat × Nat)

inductive Call
  | insert (frame : NewConnectionId)
  | next

/-- A frame as the peer may send it, where `issued` are its CIDs and their tokens. -/
def Legal (issued : Nat → ConnectionId × ResetToken) (f : NewConnectionId) : Prop :=
  f.retirePriorTo ≤ f.sequence ∧ f.sequence < 2 ^ 62 ∧ (f.id, f.resetToken) = issued f.sequence

instance (issued : Nat → ConnectionId × ResetToken) (f : NewConnectionId) :
    Decidable (Legal issued f) :=
  inferInstanceAs (Decidable (_ ∧ _ ∧ _))

def session (issued : Nat → ConnectionId × ResetToken) (cid : ConnectionId) :
    System Session Call where
  initial s := s = ⟨.new cid, [], []⟩
  step s
    | .insert frame =>
      if Legal issued frame then do
        let (result, queue) ← s.queue.insert frame
        match result with
        | .error _ => some { s with queue }
        | .ok retirement =>
          some ⟨queue, frame.sequence :: s.inserted, (retirement.map (·.1)).toList ++ s.retired⟩
      else none
    | .next => do
      let (retirement, queue) ← s.queue.next
      some { s with queue, retired := (retirement.map (·.1)).toList ++ s.retired }

def reports (retired : List (Nat × Nat)) (seq : Nat) : Nat :=
  retired.countP fun range => range.1 ≤ seq ∧ seq < range.2

section Runs

variable {issued : Nat → ConnectionId × ResetToken} {cid : ConnectionId} {inserted : List Nat}
  {retired : List (Nat × Nat)} {w' : Window}

def given (issued : Nat → ConnectionId × ResetToken) (seq : Nat) : CidData :=
  ((issued seq).1, some (issued seq).2)

structure History (issued : Nat → ConnectionId × ResetToken) (w : Window) (inserted : List Nat)
    (retired : List (Nat × Nat)) : Prop where
  own : ∀ seq ∈ inserted, w.active ≤ seq → w.get seq = some (given issued seq)
  past : ∀ range ∈ retired, range.2 ≤ w.active
  once : ∀ seq ∈ inserted, seq < w.active → reports retired seq = 1

theorem History.unreported (h : History issued w inserted retired) {seq : Nat}
    (hseq : w.active ≤ seq) : reports retired seq = 0 := by
  refine countP_eq_zero.mpr fun range hrange => ?_
  have hpast := h.past range hrange
  simp
  omega

/-- The active CID and those after it, up to `stop`, are reported. -/
theorem History.advance (h : History issued w inserted retired) (hactive : w.active ≤ w'.active)
    {stop : Nat} (hstop : stop ≤ w'.active)
    (hgone : ∀ seq < w'.active, w.get seq ≠ none → seq < stop)
    (hkept : ∀ seq ≥ w'.active, w.get seq = some (given issued seq) →
      w'.get seq = some (given issued seq)) :
    History issued w' inserted ((w.active, stop) :: retired) := by
  refine ⟨fun seq hseq hle => ?_, fun range hrange => ?_, fun seq hseq hlt => ?_⟩
  · exact hkept seq hle (h.own seq hseq (hactive.trans hle))
  · rcases mem_cons.mp hrange with rfl | hold
    · exact hstop
    · exact (h.past range hold).trans hactive
  · rw [reports, countP_cons, ← reports]
    rcases Nat.lt_or_ge seq w.active with hbefore | hafter
    · rw [h.once seq hseq hbefore, if_neg (by simp; omega)]
    · have hown := h.own seq hseq hafter
      have hin := hgone seq hlt (hown ▸ some_ne_none _)
      rw [h.unreported hafter, if_pos (by simp; omega)]

theorem History.insert (h : History issued w inserted retired) (hf : Legal issued f)
    {retirement : Option Retirement} (hinsert : w.Insert f (.ok retirement) w') :
    History issued w' (f.sequence :: inserted) ((retirement.map (·.1)).toList ++ retired) := by
  have hget : w'.get = w.kept f := by
    cases hinsert <;> assumption
  have hself : w'.get f.sequence = some (given issued f.sequence) := by
    rw [hget, kept_self, given, ← hf.2.2]
  have hnew := (w'.inside f.sequence (hself ▸ some_ne_none _)).1
  have hkept : ∀ seq ≥ f.retirePriorTo, w.get seq = some (given issued seq) →
      w'.get seq = some (given issued seq) := by
    intro seq hseq hown
    rcases eq_or_ne seq f.sequence with rfl | hne
    · exact hself
    · rw [hget, kept, if_neg hne, if_neg (not_lt.mpr hseq), hown]
  have hold : History issued w' inserted ((retirement.map (·.1)).toList ++ retired) := by
    cases hinsert with
    | plain _ _ hprior hactive =>
      rw [← hactive] at hprior
      exact ⟨fun seq hseq hle' => hkept seq (hprior.trans hle') (h.own seq hseq (hactive ▸ hle')),
        fun range hrange => hactive ▸ h.past range hrange,
        fun seq hseq hlt' => h.once seq hseq (hactive ▸ hlt')⟩
    | retiring _ hle =>
      have hactive := prior_le hget hle
      refine h.advance (by omega) (min_le_left _ _) (fun seq hseq hsome => ?_)
        fun seq hseq => hkept seq (hactive.trans hseq)
      have hbounds := w.inside seq hsome
      omega
  refine ⟨fun seq hseq hle => ?_, hold.past, fun seq hseq hlt => ?_⟩
  · rcases mem_cons.mp hseq with rfl | hseq
    · exact hself
    · exact hold.own seq hseq hle
  · rcases mem_cons.mp hseq with rfl | hseq
    · omega
    · exact hold.once seq hseq hlt

theorem History.next (h : History issued w inserted retired) {retirement : Option Retirement}
    (hnext : w.Next retirement w') :
    History issued w' inserted ((retirement.map (·.1)).toList ++ retired) := by
  cases hnext with
  | last => exact h
  | switched hget =>
    have hactive := (active_lt hget).1
    refine h.advance hactive.le le_rfl (fun seq hseq _ => hseq) fun seq hseq hown => ?_
    rw [hget, update_of_ne (by omega), hown]

def Inv (issued : Nat → ConnectionId × ResetToken) (s : Session) : Prop :=
  ∃ w, Represents s.queue w ∧ History issued w s.inserted s.retired

theorem inv_step {s s' : Session} {call : Call} (h : Inv issued s)
    (hstep : (session issued cid).step s call = some s') : Inv issued s' := by
  obtain ⟨w, hrep, hist⟩ := h
  cases call with
  | insert =>
    obtain ⟨hf, hstep⟩ := ite_none_right_eq_some.mp hstep
    obtain ⟨r, q', w', hq', hrep', hinsert⟩ := hrep.insert hf.1 hf.2.1
    rw [hq'] at hstep
    rcases r with _ | _ <;> cases hstep
    · cases hinsert <;> exact ⟨w, hrep', hist⟩
    · exact ⟨w', hrep', hist.insert hf hinsert⟩
  | next =>
    obtain ⟨r, _, w', hq', hrep', hnext⟩ := hrep.next
    simp only [session, hq'] at hstep
    cases hstep
    exact ⟨w', hrep', hist.next hnext⟩

theorem reachable_inv {s : Session} (hs : (session issued cid).Reachable s) : Inv issued s := by
  refine hs.invariant ?_ fun _ _ _ => inv_step
  rintro s rfl
  obtain ⟨w, hrep, -⟩ := represents_new cid
  exact ⟨w, hrep, by simp, by simp, by simp⟩

/-- The ring is a finite map from a window of sequence numbers, whose operations fail just
where they should, and which loses no CID that was not reported as retired. -/
theorem queue_represents_window {s : Session} (hs : (session issued cid).Reachable s) :
    ∃ w, Represents s.queue w ∧ (∀ f, Legal issued f → ∃ r q' w', s.queue.insert f = some (r, q') ∧
        Represents q' w' ∧ w.Insert f r w' ∧
        (r = .error .retired ↔ f.sequence < s.queue.offset) ∧
        (r = .error .exceedsLimit ↔ max s.queue.offset f.retirePriorTo + len ≤ f.sequence)) ∧
      (∃ r q' w', s.queue.next = some (r, q') ∧ Represents q' w' ∧ w.Next r w') ∧
      s.queue.active ≠ none ∧
      ∀ seq ∈ s.inserted, w.get seq = some (given issued seq) ∧ reports s.retired seq = 0 ∨
        w.get seq = none ∧ reports s.retired seq = 1 := by
  obtain ⟨w, hrep, hist⟩ := reachable_inv hs
  refine ⟨w, hrep, fun f hf => ?_, hrep.next, ?_, fun seq hseq => ?_⟩
  · obtain ⟨r, q', w', hq', hrep', hinsert⟩ := hrep.insert hf.1 hf.2.1
    refine ⟨r, q', w', hq', hrep', hinsert, ?_⟩
    rw [hrep.offset]
    cases hinsert <;> simp [len] at * <;> omega
  · rw [CidQueue.active, hrep.active, ne_eq, map_eq_none_iff]
    exact w.present
  · rcases Nat.lt_or_ge seq w.active with hlt | hge
    · refine .inr ⟨?_, hist.once seq hseq hlt⟩
      by_contra hsome
      have hbounds := w.inside seq hsome
      omega
    · exact .inl ⟨hist.own seq hseq hge, hist.unreported hge⟩

def sampleCid : ConnectionId :=
  ⟨[7], by decide⟩

def sampleFrame (sequence retirePriorTo : Nat) : NewConnectionId :=
  ⟨sequence, retirePriorTo, sampleCid, ⟨List.replicate 16 0, rfl⟩⟩

theorem queue_represents_window_one :
    ∃ s, (session (fun _ => (sampleCid, ⟨List.replicate 16 0, rfl⟩)) sampleCid).Reachable s ∧
      s.inserted = [1] ∧ s.retired = [(0, 1)] ∧ ∃ w, Represents s.queue w := by
  have hlegal : Legal (fun _ => (sampleCid, ⟨replicate 16 0, rfl⟩)) (sampleFrame 1 1) := by
    simp [Legal, sampleFrame]
  have hs : (session _ sampleCid).Reachable _ :=
    .step (a := .insert (sampleFrame 1 1)) (.initial rfl) trivial ((if_pos hlegal).trans rfl)
  obtain ⟨w, hrep, -⟩ := queue_represents_window hs
  exact ⟨_, hs, rfl, rfl, w, hrep⟩

end Runs

/-! ### The frames of the peer -/

structure Remote where
  side : Side
  remCids : CidQueue
  /-- `pending.retire_cids` of the Data space. -/
  retireCids : List Nat
  /-- `peer_params.stateless_reset_token`. -/
  resetToken : Option ResetToken

namespace Remote

def maxPendingRetiredCids : Nat :=
  len * 10

def retire (c : Remote) (retirement : Retirement) : Remote :=
  let ((start, stop), token) := retirement
  { c with
    retireCids := c.retireCids ++ List.range' start (stop - start)
    resetToken := some token }

def updateRemCid (c : Remote) : Option Remote := do
  let (retirement, remCids) ← c.remCids.next
  let c := { c with remCids }
  some (retirement.elim c c.retire)

/-- A server leaves the initial CID of its client as soon as it can. -/
def leaveInitial (c : Remote) : Option Remote :=
  if c.side = .server ∧ c.remCids.offset = 0 then c.updateRemCid else some c

/-- The arm of `process_payload` for NEW_CONNECTION_ID. -/
def newConnectionId (c : Remote) (frame : NewConnectionId) :
    Option (Except TransportError Remote) := do
  let active ← c.remCids.active
  if active.bytes.isEmpty then
    some (.error ⟨.protocolViolation, "NEW_CONNECTION_ID when CIDs aren't in use"⟩)
  else if frame.sequence < frame.retirePriorTo then
    some (.error ⟨.protocolViolation, "NEW_CONNECTION_ID retiring unissued CIDs"⟩)
  else do
    let (result, remCids) ← c.remCids.insert frame
    let c := { c with remCids }
    match result with
    | .ok none => c.leaveInitial.map .ok
    | .ok (some retirement) =>
      if maxPendingRetiredCids < c.retireCids.length + (retirement.1.2 - retirement.1.1) then
        some (.error ⟨.other 9, "queued too many retired CIDs"⟩)
      else (c.retire retirement).leaveInitial.map .ok
    | .error .exceedsLimit => some (.error ⟨.other 9, ""⟩)
    -- No check is made here.
    | .error .retired => some (.ok { c with retireCids := c.retireCids ++ [frame.sequence] })

end Remote

open Remote

/-- Frames that do not close the connection, while nothing is sent. -/
def frames : System Remote NewConnectionId where
  initial c := c.retireCids = [] ∧ ∃ w, Represents c.remCids w
  step c frame :=
    if frame.sequence < 2 ^ 62 then (c.newConnectionId frame).bind Except.toOption else none

/-- A frame for a CID already retired comes while there is room. -/
def Spaced (c : Remote) (frame : NewConnectionId) : Prop :=
  frame.sequence < c.remCids.offset → c.retireCids.length < maxPendingRetiredCids

structure Bounded (c : Remote) : Prop where
  window : ∃ w, Represents c.remCids w
  length : c.retireCids.length ≤ maxPendingRetiredCids
  fresh : c.remCids.offset = 0 → c.retireCids = []

variable {c c' : Remote}

theorem Bounded.leaveInitial (h : Bounded c) (hc' : c.leaveInitial = some c') : Bounded c' := by
  unfold Remote.leaveInitial at hc'
  split_ifs at hc' with hinitial
  · obtain ⟨w, hrep⟩ := h.window
    obtain ⟨r, _, w', hq', hrep', hnext⟩ := hrep.next
    have hempty := h.fresh hinitial.2
    simp only [updateRemCid, hq'] at hc'
    cases hc'
    cases hnext with
    | last => exact ⟨⟨w, hrep'⟩, h.length, fun _ => hempty⟩
    | switched hget =>
      have hactive := active_lt hget
      refine ⟨⟨w', hrep'⟩, ?_, fun hzero => ?_⟩
      · simp only [elim_some, Remote.retire, hempty, nil_append, length_range']
        simp only [maxPendingRetiredCids, len] at *
        omega
      · have hoffset := hrep'.offset.symm.trans hzero
        omega
  · cases hc'
    exact h

theorem Bounded.step (h : Bounded c) (hspaced : Spaced c f)
    (hstep : frames.step c f = some c') : Bounded c' := by
  obtain ⟨hbound, hstep⟩ := ite_none_right_eq_some.mp hstep
  obtain ⟨_, hresult, hok⟩ := bind_eq_some_iff.mp hstep
  obtain ⟨w, hrep⟩ := h.window
  obtain ⟨_, _, hresult⟩ := bind_eq_some_iff.mp hresult
  split_ifs at hresult with hempty hprior
  · cases hresult
    cases hok
  · cases hresult
    cases hok
  · obtain ⟨r, q', w', hq', hrep', hinsert⟩ := hrep.insert (not_lt.mp hprior) hbound
    rw [hq'] at hresult
    have hoffset := hrep'.offset
    cases hinsert with
    | retired hlt =>
      cases hresult
      cases hok
      rw [← hrep.offset] at hlt
      refine ⟨⟨w, hrep'⟩, ?_, fun hzero => ?_⟩
      · rw [length_append]
        exact hspaced hlt
      · have hsame := hrep.offset
        dsimp only at hzero
        omega
    | exceedsLimit =>
      cases hresult
      cases hok
    | plain =>
      obtain ⟨c'', hleave, rfl⟩ := map_eq_some_iff.mp hresult
      cases hok
      have hsame' := hrep.offset
      have hbounded : Bounded { c with remCids := q' } :=
        ⟨⟨w', hrep'⟩, h.length, fun hzero => h.fresh (by dsimp only at hzero; omega)⟩
      exact hbounded.leaveInitial hleave
    | retiring _ hle _ hget =>
      dsimp only [bind_eq_bind, bind_some] at hresult
      split_ifs at hresult with hmany
      · cases hresult
        cases hok
      · obtain ⟨_, hleave, rfl⟩ := map_eq_some_iff.mp hresult
        cases hok
        have hlater := prior_le hget hle
        refine Bounded.leaveInitial ⟨⟨w', hrep'⟩, ?_, fun hzero => ?_⟩ hleave
        · simpa [Remote.retire] using hmany
        · dsimp only [Remote.retire] at hzero
          omega

/-- Where frames for retired CIDs come only while there is room, the retirements that are
pending stay within the limit. -/
theorem retireCids_bounded (hc : frames.ReachableVia Spaced c) :
    c.retireCids.length ≤ maxPendingRetiredCids := by
  refine (hc.invariant ?_ fun _ _ _ (h : Bounded _) => h.step).length
  rintro c ⟨hempty, hwindow⟩
  exact ⟨hwindow, by simp [hempty], fun _ => hempty⟩

theorem frames_step_first :
    ∃ c, frames.step ⟨.client, .new sampleCid, [], none⟩ (sampleFrame 1 1) = some c ∧
      c.remCids.offset = 1 ∧ c.remCids.active = some sampleCid ∧ c.retireCids = [0] := by
  exact ⟨_, rfl, rfl, rfl, rfl⟩

theorem reachable_again (n : Nat) : ∃ c, frames.Reachable c ∧ c.remCids.offset = 1 ∧
    c.remCids.active = some sampleCid ∧ c.retireCids.length = n + 1 := by
  induction n with
  | zero =>
    obtain ⟨w, hrep, -⟩ := represents_new sampleCid
    obtain ⟨c, hstep, hoffset, hactive, hlist⟩ := frames_step_first
    exact ⟨c, .step (.initial ⟨rfl, w, hrep⟩) trivial hstep, hoffset, hactive, by rw [hlist]; rfl⟩
  | succ _ ih =>
    obtain ⟨c, hc, hoffset, hactive, hlen⟩ := ih
    refine ⟨{ c with retireCids := c.retireCids ++ [0] },
      .step (a := sampleFrame 0 0) hc trivial ?_, hoffset, hactive, ?_⟩
    · simp [frames, Remote.newConnectionId, hactive, CidQueue.insert, hoffset, sampleFrame,
        sampleCid, Except.toOption]
    · rw [length_append, hlen]
      rfl

theorem retireCids_bounded_one : ∃ c, frames.ReachableVia Spaced c ∧
    c.retireCids = [0] ∧ c.retireCids.length ≤ maxPendingRetiredCids := by
  obtain ⟨w, hrep, -⟩ := represents_new sampleCid
  obtain ⟨c, hstep, -, -, hlist⟩ := frames_step_first
  have hc : frames.ReachableVia Spaced c :=
    .step (.initial ⟨rfl, w, hrep⟩) (fun _ => by decide) hstep
  exact ⟨c, hc, hlist, retireCids_bounded hc⟩

theorem retireCids_exceeds :
    ∃ c, frames.Reachable c ∧ maxPendingRetiredCids < c.retireCids.length := by
  obtain ⟨c, hc, -, -, _⟩ := reachable_again maxPendingRetiredCids
  exact ⟨c, hc, by omega⟩

end Quac.RemoteCids
