import Quac.SendPath

/-!
What a rejection of early data does to the streams, in closed form: our own streams are
forgotten and the counters of the sending side start again, or an entry is missing and
the code panics.
-/

namespace Quac.EarlyData

open Function Identifiers Streams Option

variable {s s' : StreamsState} {id : StreamId}

abbrev Own (s : StreamsState) (id : StreamId) : Prop :=
  id.initiator = s.side ∧ id.index < s.next id.dir

/-- The entries that a rejection of early data removes from the maps are there. -/
def Present (s : StreamsState) (id : StreamId) : Prop :=
  s.send id ≠ none ∧ (id.dir = .bi → s.recv id ≠ none)

def forgotten (s : StreamsState) (dir : Dir) (count : Nat) : StreamsState :=
  { s with
    send := fun id => if id.initiator = s.side ∧ id.dir = dir ∧ id.index < count then none
      else s.send id
    recv := fun id => if id.initiator = s.side ∧ id.dir = dir ∧ id.index < count ∧ dir = .bi
      then none else s.recv id }

theorem forgetLocal_eq_some_iff : s.forgetLocal id = some s' ↔ Present s id ∧
      s' = if id.dir = .bi then (s.removeSend id).removeRecv id else s.removeSend id := by
  unfold StreamsState.forgetLocal Present
  rcases hsend : s.send id with _ | _
  · simp
  · by_cases hdir : id.dir = .bi
    · rcases hrecv : s.recv id with _ | _
      · simp [hdir]
      · simp [hdir, eq_comm]
    · simp [hdir, eq_comm]

theorem forgotten_zero (s : StreamsState) (dir : Dir) : forgotten s dir 0 = s := by
  simp [forgotten]

theorem forgotten_succ (s : StreamsState) (dir : Dir) (count : Nat) : forgotten s dir (count + 1) =
      if dir = .bi then
        ((forgotten s dir count).removeSend ⟨s.side, dir, count⟩).removeRecv ⟨s.side, dir, count⟩
      else (forgotten s dir count).removeSend ⟨s.side, dir, count⟩ := by
  have hsend : (forgotten s dir (count + 1)).send =
      update (forgotten s dir count).send ⟨s.side, dir, count⟩ none := by
    funext ⟨initiator, dir', index⟩
    by_cases hid : (⟨initiator, dir', index⟩ : StreamId) = ⟨s.side, dir, count⟩
    · obtain ⟨rfl, rfl, rfl⟩ := StreamId.mk.inj hid
      simp [forgotten]
    · rw [update_of_ne hid]
      have hlt : initiator = s.side ∧ dir' = dir ∧ index < count + 1 ↔
          initiator = s.side ∧ dir' = dir ∧ index < count := by
        constructor
        · rintro ⟨rfl, rfl, hlt⟩
          refine ⟨rfl, rfl, ?_⟩
          rcases Nat.lt_succ_iff_lt_or_eq.mp hlt with hlt | rfl
          · exact hlt
          · exact absurd rfl hid
        · rintro ⟨rfl, rfl, hlt⟩
          exact ⟨rfl, rfl, Nat.lt_succ_of_lt hlt⟩
      simp only [forgotten, hlt]
  have hrecv : (forgotten s dir (count + 1)).recv =
      if dir = .bi then update (forgotten s dir count).recv ⟨s.side, dir, count⟩ none
      else (forgotten s dir count).recv := by
    funext ⟨initiator, dir', index⟩
    split_ifs with hdir
    · by_cases hid : (⟨initiator, dir', index⟩ : StreamId) = ⟨s.side, dir, count⟩
      · obtain ⟨rfl, rfl, rfl⟩ := StreamId.mk.inj hid
        simp [forgotten, hdir]
      · rw [update_of_ne hid]
        have hlt : initiator = s.side ∧ dir' = dir ∧ index < count + 1 ∧ dir = .bi ↔
            initiator = s.side ∧ dir' = dir ∧ index < count ∧ dir = .bi := by
          constructor
          · rintro ⟨rfl, rfl, hlt, hbi⟩
            refine ⟨rfl, rfl, ?_, hbi⟩
            rcases Nat.lt_succ_iff_lt_or_eq.mp hlt with hlt | rfl
            · exact hlt
            · exact absurd rfl hid
          · rintro ⟨rfl, rfl, hlt, hbi⟩
            exact ⟨rfl, rfl, Nat.lt_succ_of_lt hlt, hbi⟩
        simp only [forgotten, hlt]
    · simp [forgotten, hdir]
  split_ifs at hrecv ⊢
  all_goals
    change ({ s with
      send := (forgotten s dir (count + 1)).send
      recv := (forgotten s dir (count + 1)).recv } : StreamsState) = _
    rw [hsend, hrecv]
    rfl

theorem forgetDir_loop (s : StreamsState) (dir : Dir) (count : Nat) :
    (List.range count).foldlM (fun s i => s.forgetLocal ⟨s.side, dir, i⟩) s = some s' ↔
      (∀ i < count, Present s ⟨s.side, dir, i⟩) ∧ s' = forgotten s dir count := by
  induction count generalizing s' with
  | zero => simp [forgotten_zero, eq_comm]
  | succ count ih =>
    -- Forgetting the streams before leaves the entries of this one alone.
    have hpresent : Present (forgotten s dir count) ⟨s.side, dir, count⟩ ↔
        Present s ⟨s.side, dir, count⟩ := by
      simp [Present, forgotten]
    rw [List.range_succ, List.foldlM_append]
    simp only [bind_eq_bind, bind_eq_some_iff, ih, List.foldlM_cons,
      List.foldlM_nil, pure_def]
    constructor
    · rintro ⟨t, ⟨hall, rfl⟩, t', hforget, heq⟩
      cases heq
      obtain ⟨hlast, heq⟩ := forgetLocal_eq_some_iff.mp hforget
      refine ⟨fun i hi => ?_, heq.trans (forgotten_succ s dir count).symm⟩
      rcases Nat.lt_succ_iff_lt_or_eq.mp hi with hi | rfl
      · exact hall i hi
      · exact hpresent.mp hlast
    · rintro ⟨hall, rfl⟩
      refine ⟨_, ⟨fun i hi => hall i (Nat.lt_succ_of_lt hi), rfl⟩, _, ?_, rfl⟩
      exact forgetLocal_eq_some_iff.mpr
        ⟨hpresent.mpr (hall count (Nat.lt_succ_self _)), forgotten_succ s dir count⟩

theorem forgetDir_eq_some_iff {dir : Dir} :
    s.forgetDir dir = some s' ↔ (∀ i < s.next dir, Present s ⟨s.side, dir, i⟩) ∧
      s' = { forgotten s dir (s.next dir) with
        next := update s.next dir 0
        sentMaxRemote :=
          if s.flowControlAdjusted then update s.sentMaxRemote dir 0
          else s.sentMaxRemote } := by
  unfold StreamsState.forgetDir
  simp only [bind_eq_bind, bind_eq_some_iff, forgetDir_loop, pure_def]
  constructor
  · rintro ⟨t, ⟨hall, rfl⟩, heq⟩
    cases heq
    exact ⟨hall, rfl⟩
  · rintro ⟨hall, rfl⟩
    exact ⟨_, ⟨hall, rfl⟩, rfl⟩

def rejected (s : StreamsState) : StreamsState :=
  { s with
    send := fun id => if Own s id then none else s.send id
    recv := fun id => if Own s id ∧ id.dir = .bi then none else s.recv id
    next := fun _ => 0
    sentMaxRemote := if s.flowControlAdjusted then fun _ => 0 else s.sentMaxRemote
    pending := s.pending.clear
    sendStreams := 0
    dataSent := 0
    connectionBlocked := [] }

theorem zeroRttRejected_eq_some_iff :
    s.zeroRttRejected = some s' ↔ (∀ id, Own s id → Present s id) ∧ s' = rejected s := by
  obtain ⟨t, ht⟩ : ∃ t : StreamsState, t = { forgotten s .bi (s.next .bi) with
      next := update s.next .bi 0
      sentMaxRemote :=
        if s.flowControlAdjusted then update s.sentMaxRemote .bi 0
        else s.sentMaxRemote } := ⟨_, rfl⟩
  have hboth : (∀ i < s.next .bi, Present s ⟨s.side, .bi, i⟩) ∧
      (∀ i < t.next .uni, Present t ⟨t.side, .uni, i⟩) ↔ ∀ id, Own s id → Present s id := by
    have huni : ∀ i, Present t ⟨t.side, .uni, i⟩ ↔ Present s ⟨s.side, .uni, i⟩ := by
      simp [ht, Present, forgotten]
    have hnext : t.next .uni = s.next .uni := by simp [ht]
    rw [hnext]
    constructor
    · rintro ⟨hbi, hunis⟩ ⟨initiator, dir, index⟩ ⟨hside, hlt⟩
      cases hside
      cases dir with
      | bi => exact hbi index hlt
      | uni => exact (huni index).mp (hunis index hlt)
    · intro hall
      exact ⟨fun i hi => hall _ ⟨rfl, hi⟩, fun i hi => (huni i).mpr (hall _ ⟨rfl, hi⟩)⟩
  have hfinal : ({ forgotten t .uni (t.next .uni) with
      next := update t.next .uni 0
      sentMaxRemote :=
        if t.flowControlAdjusted then update t.sentMaxRemote .uni 0 else t.sentMaxRemote
      pending := t.pending.clear
      sendStreams := 0
      dataSent := 0
      connectionBlocked := [] } : StreamsState) = rejected s := by
    have hsend : (forgotten t .uni (t.next .uni)).send = (rejected s).send := by
      funext ⟨initiator, dir, index⟩
      cases dir <;> simp [ht, forgotten, rejected]
    have hrecv : (forgotten t .uni (t.next .uni)).recv = (rejected s).recv := by
      funext ⟨initiator, dir, index⟩
      cases dir <;> simp [ht, forgotten, rejected]
    have hnext : update t.next .uni 0 = (rejected s).next := by
      funext dir
      cases dir <;> simp [ht, rejected]
    have hsent : (if t.flowControlAdjusted then update t.sentMaxRemote .uni 0
        else t.sentMaxRemote) = (rejected s).sentMaxRemote := by
      funext dir
      rcases hadjusted : s.flowControlAdjusted with _ | _ <;> cases dir <;>
        simp [ht, forgotten, rejected, hadjusted]
    dsimp only
    rw [hsend, hrecv, hnext, hsent, ht]
    rfl
  unfold StreamsState.zeroRttRejected
  simp only [Dir.all, List.foldlM_cons, List.foldlM_nil, bind_eq_bind,
    bind_eq_some_iff, pure_def, forgetDir_eq_some_iff]
  rw [← hboth, ← hfinal]
  constructor
  · rintro ⟨_, ⟨t', ⟨hbi, rfl⟩, _, ⟨huni, rfl⟩, heq⟩, heq'⟩
    cases heq
    cases heq'
    subst ht
    exact ⟨⟨hbi, huni⟩, rfl⟩
  · rintro ⟨⟨hbi, huni⟩, rfl⟩
    exact ⟨_, ⟨t, ⟨hbi, ht⟩, _, ⟨huni, rfl⟩, rfl⟩, rfl⟩

end Quac.EarlyData
