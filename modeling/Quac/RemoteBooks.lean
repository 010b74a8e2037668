import Quac.Lib.Counting
import Quac.Lib.Registry
import Quac.StreamSession

/-!
The books that are kept about open streams: how many streams of the peer are admitted, and
how many streams can be sent on.  Streams are entered with both halves and leave half by
half; where the second half goes the peer may open another stream.
-/

namespace Quac.RemoteBooks

open EarlyData Identifiers Lib.Counting Lib.Registry StreamAccounts StreamSession Streams
open Accounts Function Option

variable {s s' : StreamsState} {id : StreamId} {dir : Dir}

def insertFails (s : StreamsState) (remote : Bool) (id : StreamId) : Bool :=
  let bi := id.dir == .bi
  ((bi || !remote) && (s.send id).isSome) || ((bi || remote) && (s.recv id).isSome)

def insertRemoteFails (s : StreamsState) (dir : Dir) (start count : Nat) : Bool :=
  (List.range count).any fun i =>
    insertFails (s.insertRemote dir start i) true ⟨s.side.peer, dir, start + i⟩

def ensureFails (s : StreamsState) (dir : Dir) : Bool :=
  insertRemoteFails s dir (s.maxRemote dir)
    (s.maxConcurrentRemoteCount dir - s.allocatedRemoteCount dir)

def fullyFree (s : StreamsState) (id : StreamId) (half : StreamHalf) : Bool :=
  id.initiator != s.side &&
    (id.dir == .uni ||
      match half with
      | .send => (s.recv id).isNone
      | .recv => (s.send id).isNone)

/-- A decrement in `stream_freed`, or an assertion on the way, fails. -/
def freedFails (s : StreamsState) (id : StreamId) (half : StreamHalf) : Bool :=
  (fullyFree s id half &&
    (s.allocatedRemoteCount id.dir == 0 ||
      ensureFails
        { s with
          allocatedRemoteCount := Function.update s.allocatedRemoteCount id.dir
            (s.allocatedRemoteCount id.dir - 1) }
        id.dir)) ||
    (half == .send && s.sendStreams == 0)

/-- The stream still has a half. -/
abbrev HasHalf (s : StreamsState) (id : StreamId) : Prop :=
  (s.send id).isSome = true ∨ (s.recv id).isSome = true

/-- The streams of the peer that still have a half. -/
def live (s : StreamsState) (dir : Dir) : Nat :=
  Nat.count (fun i => (s.send ⟨s.side.peer, dir, i⟩).isSome = true ∨
    (s.recv ⟨s.side.peer, dir, i⟩).isSome = true) (s.maxRemote dir)

/-- Our own streams that can still be sent on. -/
def sending (s : StreamsState) (dir : Dir) : Nat :=
  Nat.count (fun i => (s.send ⟨s.side, dir, i⟩).isSome = true) (s.next dir)

/-- The streams of the peer that were accepted and can still be sent on; a stream may be
accepted before it is admitted. -/
def accepted (s : StreamsState) : Nat :=
  Nat.count (fun i => s.maxRemote .bi ≤ i ∨ (s.send ⟨s.side.peer, .bi, i⟩).isSome = true)
    (s.nextReportedRemote .bi)

structure Placed (s : StreamsState) : Prop where
  seated : Seated s
  sendBi : ∀ id, id.initiator ≠ s.side → s.send id ≠ none → id.dir = .bi
  recvOurs : ∀ id, id.initiator = s.side → s.recv id ≠ none →
    id.dir = .bi ∧ id.index < s.next id.dir
  recvTheirs : ∀ id, id.initiator ≠ s.side → s.recv id ≠ none → id.index < s.maxRemote id.dir
  sent : ∀ dir, s.sentMaxRemote dir ≤ s.maxRemote dir
  /-- A stream that is not accepted yet can be sent on, and nobody ended it. -/
  waiting : ∀ i, s.nextReportedRemote .bi ≤ i → i < s.maxRemote .bi →
    s.send ⟨s.side.peer, .bi, i⟩ ≠ none
  ready : ∀ id half, id.initiator ≠ s.side → s.nextReportedRemote id.dir ≤ id.index →
    s.send id = some (some half) → half.state = .ready

structure Books (s : StreamsState) : Prop extends Placed s where
  count : ∀ dir, s.allocatedRemoteCount dir = live s dir
  streams : s.sendStreams = sending s .bi + sending s .uni + accepted s

structure Level (s s' : StreamsState) : Prop where
  side : s'.side = s.side
  next : s'.next = s.next
  reported : s'.nextReportedRemote = s.nextReportedRemote
  maxRemote : s'.maxRemote = s.maxRemote
  allocated : s'.allocatedRemoteCount = s.allocatedRemoteCount
  sendStreams : s'.sendStreams = s.sendStreams
  sent : ∀ dir, s'.sentMaxRemote dir = s.sentMaxRemote dir ∨ s'.sentMaxRemote dir ≤ s.maxRemote dir
  send : ∀ id, s'.send id = none ↔ s.send id = none
  recv : ∀ id, s'.recv id = none ↔ s.recv id = none
  ready : ∀ id half, id.initiator ≠ s.side → s.nextReportedRemote id.dir ≤ id.index →
    s'.send id = some (some half) →
    half.state = .ready ∨ ∃ half', s.send id = some (some half') ∧ half'.state = half.state

theorem Level.refl (s : StreamsState) : Level s s :=
  ⟨rfl, rfl, rfl, rfl, rfl, rfl, fun _ => .inl rfl, fun _ => Iff.rfl, fun _ => Iff.rfl,
    fun _ half _ _ h => .inr ⟨half, h, rfl⟩⟩

theorem Level.trans {s'' : StreamsState} (h : Level s s') (h' : Level s' s'') : Level s s'' where
  side := h'.side.trans h.side
  next := h'.next.trans h.next
  reported := h'.reported.trans h.reported
  maxRemote := h'.maxRemote.trans h.maxRemote
  allocated := h'.allocated.trans h.allocated
  sendStreams := h'.sendStreams.trans h.sendStreams
  sent dir := by
    rcases h'.sent dir with heq | hle
    · rw [heq]
      exact h.sent dir
    · rw [h.maxRemote] at hle
      exact .inr hle
  send id := (h'.send id).trans (h.send id)
  recv id := (h'.recv id).trans (h.recv id)
  ready id half hside hle hid := by
    rw [← h.side] at hside
    have hle' : s'.nextReportedRemote id.dir ≤ id.index := by
      rw [h.reported]
      exact hle
    rcases h'.ready id half hside hle' hid with hready | ⟨half', hid, hstate⟩
    · exact .inl hready
    · rw [h.side] at hside
      rw [← hstate]
      exact h.ready id half' hside hle hid

theorem isSome_iff_of_none_iff {α : Type*} {x y : Option α} (h : x = none ↔ y = none) :
    x.isSome = true ↔ y.isSome = true := by
  rw [isSome_iff_ne_none, isSome_iff_ne_none]
  exact not_congr h

theorem Books.level (hs : Books s) (h : Level s s') : Books s' := by
  have hsend : ∀ id, (s'.send id).isSome = true ↔ (s.send id).isSome = true :=
    fun id => isSome_iff_of_none_iff (h.send id)
  have hrecv : ∀ id, (s'.recv id).isSome = true ↔ (s.recv id).isSome = true :=
    fun id => isSome_iff_of_none_iff (h.recv id)
  have hlive : live s' = live s := by
    funext dir
    simp only [live, h.maxRemote, h.side, hsend, hrecv]
  have hsending : sending s' = sending s := by
    funext dir
    simp only [sending, h.next, h.side, hsend]
  have haccepted : accepted s' = accepted s := by
    simp only [accepted, h.maxRemote, h.reported, h.side, hsend]
  refine ⟨⟨⟨?_, ?_⟩, ?_, ?_, ?_, ?_, ?_, ?_⟩, ?_, ?_⟩
  · simpa only [Own, h.side, h.next, ne_eq, h.send] using hs.seated.ours
  · simpa only [h.side, h.maxRemote, ne_eq, h.send] using hs.seated.theirs
  · simpa only [h.side, ne_eq, h.send] using hs.sendBi
  · simpa only [h.side, h.next, ne_eq, h.recv] using hs.recvOurs
  · simpa only [h.side, h.maxRemote, ne_eq, h.recv] using hs.recvTheirs
  · intro dir
    rw [h.maxRemote]
    rcases h.sent dir with heq | hle
    · rw [heq]
      exact hs.sent dir
    · exact hle
  · simpa only [h.reported, h.maxRemote, h.side, ne_eq, h.send] using hs.waiting
  · intro id half hside hle hid
    rw [h.side] at hside
    rw [h.reported] at hle
    rcases h.ready id half hside hle hid with hready | ⟨half', hid, hstate⟩
    · exact hready
    · rw [← hstate]
      exact hs.ready id half' hside hle hid
  · intro dir
    rw [h.allocated, hlive]
    exact hs.count dir
  · rw [h.sendStreams, hsending, haccepted]
    exact hs.streams

section Admission

variable {n : Nat}

theorem recv_insert_eq_none {j : StreamId} :
    (s.insert true id).recv j = none ↔ j ≠ id ∧ s.recv j = none := by
  rw [recv_insert]
  rcases eq_or_ne j id with rfl | hne
  · simp
  · simp [hne]

theorem recv_insertRemote_eq_none (dir : Dir) (start count : Nat) (j : StreamId) :
    (s.insertRemote dir start count).recv j = none ↔
      ¬ InRange s dir start count j ∧ s.recv j = none := by
  induction count with
  | zero =>
    have hnot : ¬ InRange s dir start 0 j := by
      rintro ⟨-, -, hle, hlt⟩
      omega
    simp only [hnot, not_false_eq_true, true_and]
    exact Iff.rfl
  | succ count ih =>
    have hside : (s.insertRemote dir start count).side = s.side := by rw [insertRemote_rest]
    rw [insertRemote_succ, recv_insert_eq_none, hside, ih, inRange_succ, not_or]
    constructor
    · rintro ⟨hne, hnot, hnone⟩
      exact ⟨⟨hnot, hne⟩, hnone⟩
    · rintro ⟨⟨hnot, hne⟩, hnone⟩
      exact ⟨hne, hnot, hnone⟩

/-- The next `n` streams of the peer are entered with both halves. -/
structure Admits (s s' : StreamsState) (dir : Dir) (n : Nat) : Prop where
  side : s'.side = s.side
  next : s'.next = s.next
  reported : s'.nextReportedRemote = s.nextReportedRemote
  maxRemote : s'.maxRemote = Function.update s.maxRemote dir (s.maxRemote dir + n)
  allocated : s'.allocatedRemoteCount =
    Function.update s.allocatedRemoteCount dir (s.allocatedRemoteCount dir + n)
  sendStreams : s'.sendStreams = s.sendStreams
  sent : s'.sentMaxRemote = s.sentMaxRemote
  send : ∀ id, s'.send id =
    if InRange s dir (s.maxRemote dir) n id ∧ id.dir = .bi then some none else s.send id
  recv : ∀ id, s'.recv id = none ↔ ¬ InRange s dir (s.maxRemote dir) n id ∧ s.recv id = none

theorem admits_ensureRemoteStreams (s : StreamsState) (dir : Dir) :
    Admits s (s.ensureRemoteStreams dir) dir
      (s.maxConcurrentRemoteCount dir - s.allocatedRemoteCount dir) := by
  unfold StreamsState.ensureRemoteStreams
  dsimp only
  generalize s.maxConcurrentRemoteCount dir - s.allocatedRemoteCount dir = n
  have hrest := insertRemote_rest (s := s) dir (s.maxRemote dir) n
  have hsend := send_insertRemote (s := s) dir (s.maxRemote dir) n
  have hrecv := recv_insertRemote_eq_none (s := s) dir (s.maxRemote dir) n
  refine ⟨?_, ?_, ?_, ?_, ?_, ?_, ?_, hsend, hrecv⟩ <;> rw [hrest]

theorem Admits.le (h : Admits s s' dir n) (d : Dir) : s.maxRemote d ≤ s'.maxRemote d := by
  rw [h.maxRemote]
  exact le_update_add s.maxRemote dir n d

theorem Admits.inRange_iff (h : Admits s s' dir n) : InRange s dir (s.maxRemote dir) n id ↔
      id.initiator = s.side.peer ∧ s.maxRemote id.dir ≤ id.index ∧
        id.index < s'.maxRemote id.dir := by
  rw [h.maxRemote]
  constructor
  · rintro ⟨hside, hdir, hle, hlt⟩
    rw [hdir, update_self]
    exact ⟨hside, hle, hlt⟩
  · rintro ⟨hside, hle, hlt⟩
    rcases eq_or_ne id.dir dir with hdir | hne
    · rw [hdir, update_self] at hlt
      rw [hdir] at hle
      exact ⟨hside, hdir, hle, hlt⟩
    · rw [update_of_ne hne] at hlt
      exact absurd hlt (not_lt.mpr hle)

theorem ne_side_of_inRange {start count : Nat} (h : InRange s dir start count id) :
    id.initiator ≠ s.side := by
  rw [h.1]
  exact peer_ne s.side

theorem Placed.admits (hs : Placed s) (h : Admits s s' dir n) : Placed s' := by
  have hsend : ∀ id, s'.send id ≠ none → s.send id ≠ none ∨
      InRange s dir (s.maxRemote dir) n id ∧ id.dir = .bi := by
    intro id hid
    rw [h.send] at hid
    split_ifs at hid with hnew
    · exact .inr hnew
    · exact .inl hid
  have hrecv : ∀ id, s'.recv id ≠ none → s.recv id ≠ none ∨
      InRange s dir (s.maxRemote dir) n id := by
    intro id hid
    by_cases hnew : InRange s dir (s.maxRemote dir) n id
    · exact .inr hnew
    · exact .inl fun hnone => hid ((h.recv id).mpr ⟨hnew, hnone⟩)
  refine ⟨⟨?_, ?_⟩, ?_, ?_, ?_, ?_, ?_, ?_⟩
  · intro id hside hid
    rw [h.side] at hside
    rcases hsend id hid with hid | ⟨hnew, -⟩
    · exact ⟨hside.trans h.side.symm, by rw [h.next]; exact (hs.seated.ours id hside hid).2⟩
    · exact absurd hside (ne_side_of_inRange hnew)
  · intro id hside hid
    rw [h.side] at hside
    rcases hsend id hid with hid | ⟨hnew, -⟩
    · exact lt_of_lt_of_le (hs.seated.theirs id hside hid) (h.le _)
    · exact (h.inRange_iff.mp hnew).2.2
  · intro id hside hid
    rw [h.side] at hside
    rcases hsend id hid with hid | ⟨-, hbi⟩
    · exact hs.sendBi id hside hid
    · exact hbi
  · intro id hside hid
    rw [h.side] at hside
    rw [h.next]
    rcases hrecv id hid with hid | hnew
    · exact hs.recvOurs id hside hid
    · exact absurd hside (ne_side_of_inRange hnew)
  · intro id hside hid
    rw [h.side] at hside
    rcases hrecv id hid with hid | hnew
    · exact lt_of_lt_of_le (hs.recvTheirs id hside hid) (h.le _)
    · exact (h.inRange_iff.mp hnew).2.2
  · intro d
    rw [h.sent]
    exact le_trans (hs.sent d) (h.le d)
  · intro i hle hlt
    rw [h.reported] at hle
    rw [h.side, h.send]
    split_ifs with hnew
    · exact some_ne_none _
    · refine hs.waiting i hle (lt_of_not_ge fun hge => hnew ⟨?_, rfl⟩)
      exact h.inRange_iff.mpr ⟨rfl, hge, hlt⟩
  · intro id half hside hle hid
    rw [h.side] at hside
    rw [h.reported] at hle
    rw [h.send] at hid
    split_ifs at hid
    · cases hid
    · exact hs.ready id half hside hle hid

theorem live_admits (h : Admits s s' dir n) (d : Dir) :
    live s' d = live s d + if d = dir then n else 0 := by
  have hhalf : ∀ i, HasHalf s' ⟨s'.side.peer, d, i⟩ ↔
      HasHalf s ⟨s.side.peer, d, i⟩ ∨ InRange s dir (s.maxRemote dir) n ⟨s.side.peer, d, i⟩ := by
    intro i
    have hrecv : (s'.recv ⟨s.side.peer, d, i⟩).isSome = true ↔
        InRange s dir (s.maxRemote dir) n ⟨s.side.peer, d, i⟩ ∨
          (s.recv ⟨s.side.peer, d, i⟩).isSome = true := by
      rw [isSome_iff_ne_none, isSome_iff_ne_none, Ne, h.recv, not_and_or, not_not]
    unfold HasHalf
    rw [h.side, hrecv, h.send]
    split_ifs with hnew
    · simp [hnew.1]
    · tauto
  have hlive : live s' d = Nat.count (fun i => HasHalf s ⟨s.side.peer, d, i⟩ ∨
      InRange s dir (s.maxRemote dir) n ⟨s.side.peer, d, i⟩) (s'.maxRemote d) :=
    count_congr_of_lt fun i _ => hhalf i
  have hold : ∀ i < s.maxRemote d, HasHalf s ⟨s.side.peer, d, i⟩ ∨
      InRange s dir (s.maxRemote dir) n ⟨s.side.peer, d, i⟩ ↔ HasHalf s ⟨s.side.peer, d, i⟩ := by
    intro i hi
    refine or_iff_left fun hnew => ?_
    exact absurd hi (not_lt.mpr (h.inRange_iff.mp hnew).2.1)
  rw [hlive, h.maxRemote]
  rcases eq_or_ne d dir with rfl | hne
  · rw [update_self, if_pos rfl, count_extend]
    · rw [count_congr_of_lt hold]
      rfl
    · exact fun i hle hlt => .inr ⟨rfl, rfl, hle, hlt⟩
  · rw [update_of_ne hne, if_neg hne, count_congr_of_lt hold]
    rfl

theorem sending_admits (h : Admits s s' dir n) (d : Dir) : sending s' d = sending s d := by
  unfold sending
  rw [h.next, h.side]
  refine count_congr_of_lt fun i _ => ?_
  rw [h.send, if_neg]
  rintro ⟨hnew, -⟩
  exact ne_side_of_inRange hnew rfl

theorem accepted_admits (h : Admits s s' dir n) : accepted s' = accepted s := by
  unfold accepted
  rw [h.reported, h.side]
  refine count_congr_of_lt fun i _ => ?_
  rw [h.send]
  split_ifs with hnew
  · have hnew := h.inRange_iff.mp hnew.1
    simp [hnew.2.1]
  · by_cases hlt : i < s'.maxRemote .bi
    · have hold : i < s.maxRemote .bi :=
        lt_of_not_ge fun hge => hnew ⟨h.inRange_iff.mpr ⟨rfl, hge, hlt⟩, rfl⟩
      simp [not_le.mpr hlt, not_le.mpr hold]
    · have hge := le_of_not_gt hlt
      simp [hge, le_trans (h.le .bi) hge]

theorem insertRemoteFails_eq_false {start count : Nat} (h : ∀ i, start ≤ i →
      s.send ⟨s.side.peer, dir, i⟩ = none ∧ s.recv ⟨s.side.peer, dir, i⟩ = none) :
    insertRemoteFails s dir start count = false := by
  unfold insertRemoteFails
  rw [List.any_eq_false]
  intro i _
  obtain ⟨hsend, hrecv⟩ := h (start + i) (Nat.le_add_right start i)
  generalize hid : (⟨s.side.peer, dir, start + i⟩ : StreamId) = id at hsend hrecv ⊢
  have hnot : ¬ InRange s dir start i id := by
    rintro ⟨-, -, -, hlt⟩
    rw [← hid] at hlt
    exact lt_irrefl _ hlt
  have hsend' : (s.insertRemote dir start i).send id = none := by
    rw [send_insertRemote, if_neg fun h => hnot h.1]
    exact hsend
  have hrecv' : (s.insertRemote dir start i).recv id = none := by
    rw [recv_insertRemote_eq_none]
    exact ⟨hnot, hrecv⟩
  simp [insertFails, hsend', hrecv']

theorem Placed.insertRemoteFails (hs : Placed s) (dir : Dir) (count : Nat) :
    insertRemoteFails s dir (s.maxRemote dir) count = false := by
  refine insertRemoteFails_eq_false fun i hle => ?_
  have hside := peer_ne s.side
  constructor
  · by_contra hsome
    exact not_lt.mpr hle (hs.seated.theirs ⟨s.side.peer, dir, i⟩ hside hsome)
  · by_contra hsome
    exact not_lt.mpr hle (hs.recvTheirs ⟨s.side.peer, dir, i⟩ hside hsome)

end Admission

section Freeing

structure Removed (s : StreamsState) (id : StreamId) (half : StreamHalf) : Prop where
  placed : Placed s
  count : ∀ dir, s.allocatedRemoteCount dir =
    live s dir + if fullyFree s id half = true ∧ dir = id.dir then 1 else 0
  streams : s.sendStreams = sending s .bi + sending s .uni + accepted s +
    if half = .send then 1 else 0

theorem Placed.allocated (h : Placed s) (allocatedRemoteCount : Dir → Nat) :
    Placed { s with allocatedRemoteCount } :=
  { h with seated := ⟨h.seated.ours, h.seated.theirs⟩ }

variable {half : StreamHalf}

theorem Removed.replaced (h : Removed s id half) :
    ∃ t, t = (if fullyFree s id half = true then
        StreamsState.ensureRemoteStreams { s with
          allocatedRemoteCount := update s.allocatedRemoteCount id.dir
            (s.allocatedRemoteCount id.dir - 1) } id.dir else s) ∧
      Placed t ∧ (∀ dir, t.allocatedRemoteCount dir = live t dir) ∧
      t.sendStreams = sending t .bi + sending t .uni + accepted t +
        if half = .send then 1 else 0 := by
  refine ⟨_, rfl, ?_⟩
  by_cases hfree : fullyFree s id half = true
  · rw [if_pos hfree]
    obtain ⟨u, hu⟩ : ∃ u : StreamsState, u = { s with
        allocatedRemoteCount := update s.allocatedRemoteCount id.dir
          (s.allocatedRemoteCount id.dir - 1) } := ⟨_, rfl⟩
    have hplaced : Placed u := by
      rw [hu]
      exact h.placed.allocated _
    have hadmits := admits_ensureRemoteStreams u id.dir
    rw [← hu]
    refine ⟨hplaced.admits hadmits, fun dir => ?_, ?_⟩
    · have hcount := h.count dir
      have hlive : live u dir = live s dir := by
        rw [hu]
        rfl
      rw [live_admits hadmits, hadmits.allocated, hlive]
      rcases eq_or_ne dir id.dir with rfl | hne
      · have hu' : u.allocatedRemoteCount id.dir = s.allocatedRemoteCount id.dir - 1 := by simp [hu]
        rw [update_self, if_pos rfl, hu']
        rw [if_pos ⟨hfree, rfl⟩] at hcount
        omega
      · have hu' : u.allocatedRemoteCount dir = s.allocatedRemoteCount dir := by simp [hu, hne]
        rw [update_of_ne hne, if_neg hne, hu', hcount, if_neg fun h => hne h.2]
    · rw [hadmits.sendStreams, sending_admits hadmits, sending_admits hadmits,
        accepted_admits hadmits, hu]
      exact h.streams
  · rw [if_neg hfree]
    refine ⟨h.placed, fun dir => ?_, h.streams⟩
    rw [h.count dir, if_neg fun h => hfree h.1, add_zero]

theorem Removed.freedFails (h : Removed s id half) :
    freedFails s id half = false := by
  unfold RemoteBooks.freedFails
  have hensure : ensureFails { s with
      allocatedRemoteCount := update s.allocatedRemoteCount id.dir
        (s.allocatedRemoteCount id.dir - 1) } id.dir = false :=
    (h.placed.allocated _).insertRemoteFails id.dir _
  rw [hensure, Bool.or_false, Bool.or_eq_false_iff]
  constructor
  · rcases hfree : fullyFree s id half with _ | _
    · rfl
    · have hcount := h.count id.dir
      rw [if_pos ⟨hfree, rfl⟩] at hcount
      rw [Bool.true_and, beq_eq_false_iff_ne]
      omega
  · cases half with
    | recv => rfl
    | send =>
      have hstreams := h.streams
      rw [if_pos rfl] at hstreams
      have hne : s.sendStreams ≠ 0 := by omega
      simp [hne]

theorem Removed.books (h : Removed s id half) :
    Books (s.streamFreed id half) := by
  obtain ⟨t, ht, hplaced, hcount, hstreams⟩ := h.replaced
  cases half with
  | recv =>
    change Books (if fullyFree s id .recv = true then _ else s)
    rw [← ht]
    exact ⟨hplaced, hcount, hstreams⟩
  | send =>
    have heq : s.streamFreed id .send = { t with sendStreams := t.sendStreams - 1 } := by
      rw [ht]
      rfl
    rw [heq]
    refine ⟨{ hplaced with seated := ⟨hplaced.seated.ours, hplaced.seated.theirs⟩ }, hcount, ?_⟩
    rw [hstreams]
    rfl

theorem peer_eq (hside : id.initiator ≠ s.side) :
    (⟨s.side.peer, id.dir, id.index⟩ : StreamId) = id := by
  obtain ⟨initiator, _, _⟩ := id
  cases initiator <;> cases hs : s.side <;> simp_all [Side.peer]

/-- Among the streams of the peer those with a half are counted; one loses a half. -/
theorem live_of_removed {t : StreamsState} (hside : t.side = s.side)
    (hmax : t.maxRemote = s.maxRemote)
    (hsend : ∀ j, j ≠ id → t.send j = s.send j) (hrecv : ∀ j, j ≠ id → t.recv j = s.recv j)
    (hlt : id.initiator ≠ s.side → id.index < s.maxRemote id.dir)
    (hold : id.initiator ≠ s.side → HasHalf s id)
    (hfree : fullyFree t id half = true ↔ id.initiator ≠ s.side ∧ ¬ HasHalf t id)
    (d : Dir) :
    live s d = live t d + if fullyFree t id half = true ∧ d = id.dir then 1 else 0 := by
  have hother : ∀ i, (⟨s.side.peer, d, i⟩ : StreamId) ≠ id →
      (HasHalf t ⟨t.side.peer, d, i⟩ ↔ HasHalf s ⟨s.side.peer, d, i⟩) := by
    intro i hne
    unfold HasHalf
    rw [hside, hsend _ hne, hrecv _ hne]
  unfold live
  rw [hmax]
  by_cases hgone : fullyFree t id half = true ∧ d = id.dir
  · obtain ⟨hgone, rfl⟩ := hgone
    obtain ⟨hpeer, hnone⟩ := hfree.mp hgone
    rw [if_pos ⟨hgone, rfl⟩]
    refine (count_remove (hlt hpeer) ?_ fun i _ => ?_).symm
    · rw [peer_eq hpeer]
      exact hold hpeer
    · rcases eq_or_ne i id.index with rfl | hne
      · rw [hside, peer_eq hpeer]
        exact ⟨fun h => absurd h hnone, fun h => absurd rfl h.2⟩
      · have hsame := hother i fun h => hne (congrArg StreamId.index h)
        exact hsame.trans (and_iff_left hne).symm
  · rw [if_neg hgone, add_zero]
    refine count_congr_of_lt fun i _ => ?_
    by_cases hid : (⟨s.side.peer, d, i⟩ : StreamId) = id
    · have hpeer : id.initiator ≠ s.side := by
        rw [← hid]
        exact peer_ne s.side
      have hdir : d = id.dir := by rw [← hid]
      have hkept : HasHalf t id := by
        by_contra hnone
        exact hgone ⟨hfree.mpr ⟨hpeer, hnone⟩, hdir⟩
      rw [hside, hid]
      exact iff_of_true (hold hpeer) hkept
    · exact (hother i hid).symm

theorem Books.removeRecv (h : Books s) (hid : s.recv id ≠ none) :
    Removed (s.removeRecv id) id .recv := by
  have hrecv : ∀ j, (s.removeRecv id).recv j ≠ none → s.recv j ≠ none :=
    fun _ hj hnone => hj (update_none_eq_none.mpr (.inr hnone))
  refine ⟨⟨⟨h.seated.ours, h.seated.theirs⟩, h.sendBi, ?_, ?_, h.sent, h.waiting, h.ready⟩, ?_,
    h.streams⟩
  · exact fun j hside hj => h.recvOurs j hside (hrecv j hj)
  · exact fun j hside hj => h.recvTheirs j hside (hrecv j hj)
  · intro d
    refine (h.count d).trans
      (live_of_removed (s := s) (t := s.removeRecv id) rfl rfl (fun _ _ => rfl)
      (fun j hne => ?_) (fun hside => h.recvTheirs id hside hid) (fun _ => .inr ?_) ?_ d)
    · exact update_of_ne hne _ _
    · exact isSome_iff_ne_none.mpr hid
    · have hnone : (s.removeRecv id).recv id = none := update_self _ _ _
      have huni : id.initiator ≠ s.side → id.dir = .uni → s.send id = none := by
        intro hside hdir
        by_contra hsome
        rw [h.sendBi id hside hsome] at hdir
        cases hdir
      rw [HasHalf, hnone]
      simp only [fullyFree, StreamsState.removeRecv, Bool.and_eq_true, bne_iff_ne, Bool.or_eq_true,
        beq_iff_eq, isNone_iff_eq_none, isSome_none, Bool.false_eq_true, or_false,
        Bool.not_eq_true, isSome_eq_false_iff]
      constructor
      · rintro ⟨hside, hdir | hsend⟩
        · exact ⟨hside, huni hside hdir⟩
        · exact ⟨hside, hsend⟩
      · rintro ⟨hside, hsend⟩
        exact ⟨hside, .inr hsend⟩

theorem Books.removeSend (h : Books s) (hid : s.send id ≠ none)
    (haccepted : id.initiator ≠ s.side → id.index < s.nextReportedRemote id.dir) :
    Removed (s.removeSend id) id .send := by
  have hsend : ∀ j, (s.removeSend id).send j ≠ none → s.send j ≠ none :=
    fun _ hj hnone => hj (update_none_eq_none.mpr (.inr hnone))
  have hkeep : ∀ j, j ≠ id → (s.removeSend id).send j = s.send j :=
    fun j hne => update_of_ne hne _ _
  have hsome : ∀ j, ((s.removeSend id).send j).isSome = true ↔
      (s.send j).isSome = true ∧ j ≠ id := fun _ => isSome_update_none
  have hid' := isSome_iff_ne_none.mpr hid
  refine ⟨⟨⟨?_, ?_⟩, ?_, h.recvOurs, h.recvTheirs, h.sent, ?_, ?_⟩, ?_, ?_⟩
  · exact fun j hside hj => h.seated.ours j hside (hsend j hj)
  · exact fun j hside hj => h.seated.theirs j hside (hsend j hj)
  · exact fun j hside hj => h.sendBi j hside (hsend j hj)
  · intro i hle hlt
    rw [hkeep]
    · exact h.waiting i hle hlt
    · intro heq
      rw [← heq] at haccepted
      exact absurd (haccepted (peer_ne s.side)) (not_lt.mpr hle)
  · intro j half hside hle hj
    exact h.ready j half hside hle (update_none_eq_some.mp hj).2
  · intro d
    refine (h.count d).trans (live_of_removed (s := s) (t := s.removeSend id) rfl rfl hkeep
      (fun _ _ => rfl) (fun hside => h.seated.theirs id hside hid) (fun _ => .inl hid') ?_ d)
    simp only [HasHalf, update_self, fullyFree, StreamsState.removeSend, Bool.and_eq_true,
      bne_iff_ne, Bool.or_eq_true, beq_iff_eq, isNone_iff_eq_none, isSome_none,
      Bool.false_eq_true, false_or, Bool.not_eq_true, isSome_eq_false_iff]
    constructor
    · rintro ⟨hside, hdir | hrecv⟩
      · rw [h.sendBi id hside hid] at hdir
        cases hdir
      · exact ⟨hside, hrecv⟩
    · rintro ⟨hside, hrecv⟩
      exact ⟨hside, .inr hrecv⟩
  · rw [if_pos rfl]
    change s.sendStreams = _
    rw [h.streams]
    have hours : ∀ d, ¬ (id.initiator = s.side ∧ d = id.dir) →
        sending (s.removeSend id) d = sending s d := by
      intro d hnot
      refine count_congr_of_lt fun i _ => (hsome _).trans (and_iff_left fun heq => ?_)
      exact hnot ⟨(congrArg StreamId.initiator heq).symm, congrArg StreamId.dir heq⟩
    by_cases hside : id.initiator = s.side
    · have hself : (⟨s.side, id.dir, id.index⟩ : StreamId) = id := by rw [← hside]
      have hgone : sending (s.removeSend id) id.dir + 1 = sending s id.dir := by
        refine count_remove (h.seated.ours id hside hid).2 (hself.symm ▸ hid') fun i _ =>
          (hsome _).trans (and_congr_right fun _ => not_congr ⟨congrArg StreamId.index, ?_⟩)
        rintro rfl
        exact hself
      have hpeers : accepted (s.removeSend id) = accepted s := by
        refine count_congr_of_lt fun i _ =>
          or_congr_right ((hsome _).trans (and_iff_left fun heq => ?_))
        exact peer_ne s.side ((congrArg StreamId.initiator heq).trans hside)
      cases hdir : id.dir with
      | bi =>
        rw [hdir] at hgone
        rw [hours .uni (by simp [hdir])]
        omega
      | uni =>
        rw [hdir] at hgone
        rw [hours .bi (by simp [hdir])]
        omega
    · have hbi := h.sendBi id hside hid
      have hself : (⟨s.side.peer, .bi, id.index⟩ : StreamId) = id := by
        rw [← hbi]
        exact peer_eq hside
      have hlt := h.seated.theirs id hside hid
      have hreported := haccepted hside
      rw [hbi] at hlt hreported
      have hgone : accepted (s.removeSend id) + 1 = accepted s := by
        refine count_remove hreported (.inr (hself.symm ▸ hid')) fun i _ =>
          (or_congr_right (hsome _)).trans (or_and_left.trans (and_congr_right fun _ => ?_))
        constructor
        · rintro (hle | hne) rfl
          · exact absurd hlt (not_lt.mpr hle)
          · exact hne hself
        · exact fun hne => .inr fun heq => hne (congrArg StreamId.index heq)
      rw [hours .bi fun hown => hside hown.1, hours .uni fun hown => hside hown.1]
      omega

end Freeing

theorem Placed.insertFails (h : Placed s) (dir : Dir) :
    insertFails { s with next := update s.next dir (s.next dir + 1) } false
      ⟨s.side, dir, s.next dir⟩ = false := by
  have hsend := h.seated.send_next dir
  have hrecv : s.recv ⟨s.side, dir, s.next dir⟩ = none := by
    by_contra hsome
    exact lt_irrefl _ (h.recvOurs _ rfl hsome).2
  simp [RemoteBooks.insertFails, hsend, hrecv]

theorem Books.admits {n : Nat} (h : Books s) (hadmits : Admits s s' dir n) : Books s' := by
  refine ⟨h.toPlaced.admits hadmits, fun d => ?_, ?_⟩
  · rw [live_admits hadmits, hadmits.allocated, ← h.count]
    rcases eq_or_ne d dir with rfl | hne
    · rw [update_self, if_pos rfl]
    · rw [update_of_ne hne, if_neg hne, add_zero]
  · rw [hadmits.sendStreams, sending_admits hadmits, sending_admits hadmits,
      accepted_admits hadmits]
    exact h.streams

theorem Books.openStream (h : Books s) (dir : Dir) :
    Books (StreamAccess.openStream s false dir).2 := by
  have hseated := seated_openStream h.seated dir
  have hopens := opens s dir
  generalize StreamAccess.openStream s false dir = r at hopens hseated ⊢
  cases hopens with
  | refused =>
    refine h.level ?_
    have hsame := Level.refl s
    exact { hsame with }
  | opened id hid _ _ hrecv =>
    have hpeer : ∀ d i, (⟨s.side.peer, d, i⟩ : StreamId) ≠ id := by
      intro d i heq
      rw [hid] at heq
      exact peer_ne s.side (StreamId.mk.inj heq).1
    refine ⟨⟨hseated, ?_, ?_, ?_, h.sent, ?_, ?_⟩, ?_, ?_⟩
    · intro j hj hne
      rcases eq_or_ne j id with rfl | hji
      · rw [hid] at hj
        exact absurd rfl hj
      · dsimp only at hne
        rw [update_of_ne hji] at hne
        exact h.sendBi j hj hne
    · intro j hj hne
      dsimp only at hne ⊢
      rw [hrecv] at hne
      split_ifs at hne with hnew
      · rw [hnew.1, hid, update_self]
        exact ⟨hnew.2, Nat.lt_succ_self _⟩
      · obtain ⟨hbi, hlt⟩ := h.recvOurs j hj hne
        exact ⟨hbi, lt_of_lt_of_le hlt (le_update_add s.next dir 1 _)⟩
    · intro j hj hne
      dsimp only at hne
      rw [hrecv] at hne
      split_ifs at hne with hnew
      · rw [hnew.1, hid] at hj
        exact absurd rfl hj
      · exact h.recvTheirs j hj hne
    · intro i hle hlt
      dsimp only
      rw [update_of_ne (hpeer _ _)]
      exact h.waiting i hle hlt
    · intro j half hj hle hsome
      rcases Lib.Registry.update_some_eq_some.mp hsome with ⟨-, hnew⟩ | ⟨-, hold⟩
      · cases hnew
      · exact h.ready j half hj hle hold
    · intro d
      refine (h.count d).trans (count_congr_of_lt fun i _ => ?_)
      dsimp only
      rw [hrecv, update_of_ne (hpeer _ _), if_neg fun hnew => hpeer _ _ hnew.1]
    · have haccepted : accepted { s with send := update s.send id (some none) } = accepted s := by
        refine count_congr_of_lt fun i _ => ?_
        dsimp only
        rw [update_of_ne (hpeer _ _)]
      have hsending : ∀ d, Nat.count (fun i =>
          (update s.send id (some none) ⟨s.side, d, i⟩).isSome = true)
          (update s.next dir (s.next dir + 1) d) =
          sending s d + if d = dir then 1 else 0 := by
        intro d
        have hold : ∀ i < s.next d, (update s.send id (some none) ⟨s.side, d, i⟩).isSome = true ↔
              (s.send ⟨s.side, d, i⟩).isSome = true := by
          intro i hi
          rw [update_of_ne]
          rw [hid]
          intro heq
          obtain ⟨-, rfl, rfl⟩ := StreamId.mk.inj heq
          exact lt_irrefl _ hi
        rcases eq_or_ne d dir with rfl | hne
        · rw [update_self, Nat.count_succ, count_congr_of_lt hold, if_pos rfl, if_pos]
          · rfl
          · rw [← hid, update_self]
            rfl
        · rw [update_of_ne hne, count_congr_of_lt hold, if_neg hne, add_zero]
          rfl
      calc s.sendStreams + 1
        _ = sending s .bi + (if Dir.bi = dir then 1 else 0) +
              (sending s .uni + if Dir.uni = dir then 1 else 0) + accepted s := by
            rw [h.streams]
            cases dir <;> simp <;> omega
        _ = _ := by
            rw [← hsending, ← hsending, ← haccepted]
            rfl

theorem Books.accept (h : Books s) (dir : Dir) : Books (StreamAccess.acceptStream s dir).2 := by
  have hgrows := le_update_add s.nextReportedRemote dir 1
  have hplaced : ∀ sendStreams, Placed { s with
      nextReportedRemote := update s.nextReportedRemote dir (s.nextReportedRemote dir + 1)
      sendStreams } := fun _ =>
    { h with
      seated := ⟨h.seated.ours, h.seated.theirs⟩
      waiting := fun i hle hlt => h.waiting i (le_trans (hgrows .bi) hle) hlt
      ready := fun id half hside hle hid =>
        h.ready id half hside (le_trans (hgrows id.dir) hle) hid }
  unfold StreamAccess.acceptStream
  split_ifs with hnone hbi
  · exact h
  · subst hbi
    refine ⟨hplaced _, h.count, ?_⟩
    · -- The stream that is accepted now can be sent on, or is not admitted yet.
      have hnew : s.maxRemote .bi ≤ s.nextReportedRemote .bi ∨
          (s.send ⟨s.side.peer, .bi, s.nextReportedRemote .bi⟩).isSome = true := by
        rcases Nat.lt_or_ge (s.nextReportedRemote .bi) (s.maxRemote .bi) with hlt | hge
        · exact .inr (isSome_iff_ne_none.mpr (h.waiting _ le_rfl hlt))
        · exact .inl hge
      change s.sendStreams + 1 = sending s .bi + sending s .uni + Nat.count
        (fun i => s.maxRemote .bi ≤ i ∨ (s.send ⟨s.side.peer, .bi, i⟩).isSome = true)
        (update s.nextReportedRemote .bi (s.nextReportedRemote .bi + 1) .bi)
      rw [update_self, Nat.count_succ, if_pos hnew, h.streams]
      rfl
  · have huni : dir = .uni := by
      cases dir with
      | bi => exact absurd rfl hbi
      | uni => rfl
    subst huni
    exact ⟨hplaced _, h.count, h.streams⟩

theorem Books.rejected (h : Books s) (hreported : s.nextReportedRemote .bi = 0) :
    Books (EarlyData.rejected s) := by
  have hsend : ∀ id : StreamId, id.initiator ≠ s.side →
      (EarlyData.rejected s).send id = s.send id :=
    fun id hside => if_neg fun hown => hside hown.1
  have hrecv : ∀ id : StreamId, id.initiator ≠ s.side →
      (EarlyData.rejected s).recv id = s.recv id :=
    fun id hside => if_neg fun hown => hside hown.1.1
  refine ⟨⟨seated_rejected h.seated, ?_, ?_, ?_, ?_, ?_, ?_⟩, ?_, ?_⟩
  · intro id hside hid
    rw [hsend id hside] at hid
    exact h.sendBi id hside hid
  · intro id hside hid
    simp only [EarlyData.rejected] at hid
    split_ifs at hid with hown
    · exact absurd rfl hid
    · obtain ⟨hbi, hlt⟩ := h.recvOurs id hside hid
      exact absurd ⟨⟨hside, hlt⟩, hbi⟩ hown
  · intro id hside hid
    rw [hrecv id hside] at hid
    exact h.recvTheirs id hside hid
  · intro d
    simp only [EarlyData.rejected]
    split_ifs
    · exact Nat.zero_le _
    · exact h.sent d
  · intro i hle hlt
    have hkept : (EarlyData.rejected s).send ⟨s.side.peer, .bi, i⟩ = s.send ⟨s.side.peer, .bi, i⟩ :=
      hsend _ (peer_ne s.side)
    change (EarlyData.rejected s).send ⟨s.side.peer, .bi, i⟩ ≠ none
    rw [hkept]
    exact h.waiting i hle hlt
  · intro id half hside hle hid
    rw [hsend id hside] at hid
    exact h.ready id half hside hle hid
  · intro d
    refine (h.count d).trans (count_congr_of_lt fun i _ => ?_)
    have hpeer : (⟨s.side.peer, d, i⟩ : StreamId).initiator ≠ s.side := peer_ne s.side
    change _ ↔ ((EarlyData.rejected s).send ⟨s.side.peer, d, i⟩).isSome = true ∨
      ((EarlyData.rejected s).recv ⟨s.side.peer, d, i⟩).isSome = true
    rw [hsend _ hpeer, hrecv _ hpeer]
  · have haccepted : accepted (EarlyData.rejected s) = 0 := by
      change Nat.count _ (s.nextReportedRemote .bi) = 0
      rw [hreported, Nat.count_zero]
    rw [haccepted]
    rfl

end Quac.RemoteBooks
