import Quac.StreamSession
import Quac.StreamSignals

/-!
A write that is refused for lack of credit is answered by a `Writable` event once there is
credit again.  A stream without credit of the connection stands in `connection_blocked`,
and one without credit of its own is reported when its limit is raised.
-/

namespace Quac.WriteNotify

open EarlyData Function Identifiers Lib.Transition SendData SendHalf SendPath SendSteps StreamAccess
open StreamAccounts
open StreamParty hiding State step system
open StreamSession StreamSignals Streams StreamsState List

variable {owed' ids : List StreamId}

/-- The events that `poll` yields until it returns `None`. -/
def pollAll : Nat → StreamsState → Option (List StreamEvent)
  | 0, _ => none
  | fuel + 1, s =>
    match s.poll with
    | (none, _) => some []
    | (some event, s) => (pollAll fuel s).map (event :: ·)

def afterWrite (id : StreamId) (owed : List StreamId) : Except WriteError Nat → List StreamId
  | .error .blocked => id :: owed
  | _ => owed.filter (· ≠ id)

def afterPoll (owed : List StreamId) : Option StreamEvent → List StreamId
  | some (.writable id) => owed.filter (· ≠ id)
  | _ => owed

def afterOpen (owed : List StreamId) : Option StreamId → List StreamId
  | some id => owed.filter (· ≠ id)
  | none => owed

/-- The streams whose last write was blocked and that `poll` did not report since. -/
def owing (p : Party) (op : Operation) (owed : List StreamId) : List StreamId :=
  match op with
  | .call (.write id data) => afterWrite id owed (writeStream p.streams false id data).1
  | .call .poll => afterPoll owed p.streams.poll.1
  | .call (.openStream dir) => afterOpen owed (openStream p.streams false dir).1
  | _ => owed

/-- The state of the streams together with the writes that are owed an event. -/
def watched : System (Party × List StreamId) Operation :=
  system.observed [] owing

section Invariant

variable {s s' s'' : StreamsState} {owed owed' : List StreamId} {id : StreamId} {half half' : Send}

structure Noted (s : StreamsState) (owed : List StreamId) (id : StreamId) : Prop where
  /-- Blocked streams were opened, and are not opened again. -/
  listed : id ∈ s.connectionBlocked → (id.initiator = s.side → id.index < s.next id.dir) ∧
    (id.initiator ≠ s.side → id.index < s.maxRemote id.dir)
  flagged : ∀ half, s.getSend id = some half →
    s.connectionBlocked.count id = half.connectionBlocked.toNat
  limited : ∀ half, s.getSend id = some half → half.offset ≤ half.maxData
  waited : id ∈ owed → (id.initiator ≠ s.side → id.index < s.maxRemote id.dir) ∧
    s.send id ≠ some none
  notified : id ∈ owed → ∀ half, s.getSend id = some half → half.isWritable = true →
    id ∈ s.connectionBlocked ∨ .writable id ∈ s.events ∨ half.maxData ≤ half.offset

structure Notified (s : StreamsState) (owed : List StreamId) : Prop where
  seated : Seated s
  noted : ∀ id, Noted s owed id

structure Same (half half' : Send) : Prop where
  flag : half'.connectionBlocked = half.connectionBlocked
  maxData : half'.maxData = half.maxData
  offset : half'.offset = half.offset
  writable : half'.isWritable = true → half.isWritable = true

theorem Same.refl (half : Send) : Same half half :=
  ⟨rfl, rfl, rfl, id⟩

theorem Noted.of_same (h : Noted s owed id) (hside : s'.side = s.side)
    (hnext : s.next id.dir ≤ s'.next id.dir) (hmax : s.maxRemote id.dir ≤ s'.maxRemote id.dir)
    (hsend : s'.send id = s.send id) (hlimits : s'.maxSendData = s.maxSendData)
    (hlist : s'.connectionBlocked.count id = s.connectionBlocked.count id)
    (hevents : .writable id ∈ s.events → .writable id ∈ s'.events)
    (howed : id ∈ owed' → id ∈ owed) : Noted s' owed' id := by
  have hget : s'.getSend id = s.getSend id := by
    simp only [getSend, hsend, hlimits]
  have hmem : id ∈ s'.connectionBlocked ↔ id ∈ s.connectionBlocked := by
    rw [← count_pos_iff, ← count_pos_iff, hlist]
  constructor
  · intro hid
    obtain ⟨hours, htheirs⟩ := h.listed (hmem.mp hid)
    rw [hside]
    exact ⟨fun hid => lt_of_lt_of_le (hours hid) hnext,
      fun hid => lt_of_lt_of_le (htheirs hid) hmax⟩
  · rw [hget, hlist]
    exact h.flagged
  · rw [hget]
    exact h.limited
  · intro hid
    obtain ⟨htheirs, hused⟩ := h.waited (howed hid)
    rw [hside, hsend]
    exact ⟨fun hid => lt_of_lt_of_le (htheirs hid) hmax, hused⟩
  · intro hid half hhalf hwritable
    rw [hget] at hhalf
    rw [hmem]
    exact (h.notified (howed hid) half hhalf hwritable).imp_right (Or.imp_left hevents)

theorem Noted.mem_iff (h : Noted s owed id) (hget : s.getSend id = some half) :
    id ∈ s.connectionBlocked ↔ half.connectionBlocked = true := by
  rw [← count_pos_iff, h.flagged half hget]
  rcases half.connectionBlocked with _ | _ <;> decide

theorem noted_new (hlist : id ∉ s.connectionBlocked) (howed : id ∉ owed)
    (hnew : ∀ half, s.getSend id = some half → half = .new half.maxData) : Noted s owed id := by
  refine ⟨fun hid => absurd hid hlist, fun half hhalf => ?_, fun half hhalf => ?_,
    fun hid => absurd hid howed, fun hid => absurd hid howed⟩
  · rw [hnew half hhalf]
    exact count_eq_zero.mpr hlist
  · rw [hnew half hhalf]
    exact Nat.zero_le _

theorem Notified.of_same (h : Notified s owed) (hside : s'.side = s.side)
    (hnext : s'.next = s.next) (hmax : s'.maxRemote = s.maxRemote) (hsend : s'.send = s.send)
    (hlimits : s'.maxSendData = s.maxSendData)
    (hlist : s'.connectionBlocked = s.connectionBlocked) (hevents : s.events ⊆ s'.events) :
    Notified s' owed := by
  refine ⟨⟨?_, ?_⟩, fun id => ?_⟩
  · simpa only [Own, hside, hsend, hnext] using h.seated.ours
  · simpa only [hside, hsend, hmax] using h.seated.theirs
  · exact (h.noted id).of_same hside (by rw [hnext]) (by rw [hmax]) (by rw [hsend]) hlimits
      (by rw [hlist]) (fun he => hevents he) fun hid => hid

theorem Notified.kept (h : Notified s owed) (hkept : Kept s s') : Notified s' owed := by
  refine ⟨(seats_of_kept hkept).seated h.seated, fun id => ?_⟩
  rcases hkept.send id with heq | ⟨hadmitted, hnew⟩
  · exact (h.noted id).of_same hkept.side (by rw [hkept.next]) (hkept.maxRemote _) heq
      hkept.maxSendData (by rw [hkept.connectionBlocked]) (fun he => hkept.events.subset he)
      fun hid => hid
  · refine noted_new (fun hid => ?_) (fun hid => ?_) fun half hhalf => ?_
    · rw [hkept.connectionBlocked] at hid
      exact absurd (((h.noted id).listed hid).2 hadmitted.1) (not_lt.mpr hadmitted.2.1)
    · exact absurd (((h.noted id).waited hid).1 hadmitted.1) (not_lt.mpr hadmitted.2.1)
    · rw [getSend, hnew] at hhalf
      cases hhalf
      rfl

structure Touched (s s' : StreamsState) (id : StreamId) (half' : Send) : Prop where
  side : s'.side = s.side
  next : s'.next = s.next
  maxRemote : s'.maxRemote = s.maxRemote
  send : s'.send = (s.setSend id half').send
  maxSendData : s'.maxSendData = s.maxSendData

theorem Touched.getSend_self (h : Touched s s' id half') : s'.getSend id = some half' := by
  simp [getSend, h.send, setSend]

theorem Touched.seats (h : Touched s s' id half') (hget : s.getSend id = some half) :
    Seats s s' := by
  have hset := seats_setSend (send_ne_none hget) half'
  refine ⟨h.side, h.next, fun dir => le_of_eq (by rw [h.maxRemote]), fun j hj => .inl ?_⟩
  rw [h.send] at hj
  rcases hset.send j hj with hj | ⟨-, hle, hlt⟩
  · exact hj
  · exact absurd hlt (not_lt.mpr hle)

/-- One half changes; of the other streams the list and the events say the same. -/
theorem Notified.touched (h : Notified s owed) (ht : Touched s s' id half')
    (hget : s.getSend id = some half)
    (hlist : ∀ j ≠ id, s'.connectionBlocked.count j = s.connectionBlocked.count j)
    (hflag : s'.connectionBlocked.count id = half'.connectionBlocked.toNat)
    (hlimit : half'.offset ≤ half'.maxData)
    (hevents : ∀ j ≠ id, .writable j ∈ s.events → .writable j ∈ s'.events)
    (howed : ∀ j ∈ owed', j ≠ id → j ∈ owed)
    (hnotified : id ∈ owed' → half'.isWritable = true →
      id ∈ s'.connectionBlocked ∨ .writable id ∈ s'.events ∨ half'.maxData ≤ half'.offset) :
    Notified s' owed' := by
  have hseated := (ht.seats hget).seated h.seated
  have hself := ht.getSend_self
  have hne_none : s'.send id ≠ none := send_ne_none hself
  refine ⟨hseated, fun j => ?_⟩
  rcases eq_or_ne j id with rfl | hne
  · refine ⟨fun _ => ⟨fun hside => (hseated.ours j hside hne_none).2,
      fun hside => hseated.theirs j hside hne_none⟩, ?_, ?_, ?_, ?_⟩
    · intro half'' hj
      cases hself.symm.trans hj
      exact hflag
    · intro half'' hj
      cases hself.symm.trans hj
      exact hlimit
    · intro _
      refine ⟨fun hside => hseated.theirs j hside hne_none, ?_⟩
      simp [ht.send, setSend]
    · intro hj half'' hhalf hwritable
      cases hself.symm.trans hhalf
      exact hnotified hj hwritable
  · refine (h.noted j).of_same ht.side (by rw [ht.next]) (by rw [ht.maxRemote]) ?_ ht.maxSendData
      (hlist j hne) (hevents j hne) fun hj => howed j hj hne
    rw [ht.send]
    exact update_of_ne hne _ _

theorem Notified.moved (h : Notified s owed) (ht : Touched s s' id half')
    (hget : s.getSend id = some half) (hlist : s'.connectionBlocked = s.connectionBlocked)
    (hflag : half'.connectionBlocked = half.connectionBlocked)
    (hlimit : half'.offset ≤ half'.maxData) (hevents : s.events ⊆ s'.events)
    (howed : ∀ j ∈ owed', j ≠ id → j ∈ owed)
    (hnotified : id ∈ owed' → half'.isWritable = true →
      id ∈ s.connectionBlocked ∨ .writable id ∈ s'.events ∨ half'.maxData ≤ half'.offset) :
    Notified s' owed' := by
  refine h.touched ht hget (fun j _ => by rw [hlist]) ?_ hlimit (fun j _ he => hevents he) howed ?_
  · rw [hlist, hflag]
    exact (h.noted id).flagged half hget
  · rwa [hlist]

theorem Notified.same (h : Notified s owed) (ht : Touched s s' id half')
    (hget : s.getSend id = some half) (hsame : Same half half')
    (hlist : s'.connectionBlocked = s.connectionBlocked) (hevents : s.events ⊆ s'.events) :
    Notified s' owed := by
  refine h.moved ht hget hlist hsame.flag ?_ hevents (fun j hj _ => hj) fun hid hwritable => ?_
  · rw [hsame.offset, hsame.maxData]
    exact (h.noted id).limited half hget
  · rw [hsame.offset, hsame.maxData]
    exact ((h.noted id).notified hid half hget (hsame.writable hwritable)).imp_right
      (Or.imp_left fun he => hevents he)

theorem Notified.removeSend (h : Notified s owed) (id : StreamId) :
    Notified (s.removeSend id) owed := by
  refine ⟨(seats_removeSend s id).seated h.seated, fun j => ?_⟩
  rcases eq_or_ne j id with rfl | hne
  · have hgone : ∀ half, (s.removeSend j).getSend j ≠ some half := by
      simp [getSend, StreamsState.removeSend]
    exact ⟨(h.noted j).listed, fun half hj => absurd hj (hgone half),
      fun half hj => absurd hj (hgone half),
      fun hj => ⟨((h.noted j).waited hj).1, by simp [StreamsState.removeSend]⟩,
      fun _ half hj => absurd hj (hgone half)⟩
  · exact (h.noted j).of_same rfl le_rfl le_rfl (update_of_ne hne _ _) rfl rfl
      (fun he => he) fun hj => hj

theorem Notified.freed (h : Notified s owed) (id : StreamId) :
    Notified ((s.removeSend id).streamFreed id .send) owed := by
  obtain ⟨t, hkept, heq⟩ := streamFreed_send (s.removeSend id) id
  have hfreed := (h.removeSend id).kept hkept
  rw [heq]
  exact hfreed.of_same rfl rfl rfl rfl rfl rfl fun _ he => he

end Invariant

section Quiet

variable {s s' : StreamsState} {owed : List StreamId} {id : StreamId} {half half' : Send}

/-- What may be done where no credit is used or granted. -/
def quiet : Scope :=
  { Scope.any with credit := False }

theorem same_of_halfStep {queues : Bool} (h : HalfStep quiet id half queues half') :
    Same half half' := by
  cases h with
  | stopped =>
    unfold Send.tryStop
    split
    · exact ⟨rfl, rfl, rfl, fun hw => hw⟩
    · exact .refl half
  | reset =>
    unfold Send.reset
    split
    iterate 2 exact ⟨rfl, rfl, rfl, fun hw => by cases hw⟩
    exact .refl half
  | finished _ hfinish =>
    unfold Send.finish at hfinish
    split at hfinish
    · cases hfinish
    · split_ifs at hfinish
      cases hfinish
      exact ⟨rfl, rfl, rfl, fun hw => by cases hw⟩
  | flagged h | raised h | written h => exact h.elim
  | _ => exact ⟨rfl, rfl, rfl, fun hw => hw⟩

theorem Notified.sendStep (h : Notified s owed) (hstep : SendStep quiet s s') :
    Notified s' owed := by
  cases hstep with
  | calm hget hhalf | filled hget hhalf =>
    exact h.same ⟨rfl, rfl, rfl, rfl, rfl⟩ hget (same_of_halfStep hhalf) rfl fun _ he => he
  | framed _ _ hsend hstate hoffset hsame =>
    refine h.same ⟨rfl, rfl, rfl, rfl, rfl⟩ (getSend_of_send hsend)
      ⟨hsame.1, hsame.2, hoffset, fun hw => ?_⟩ rfl fun _ he => he
    rwa [Send.isWritable, hstate] at hw
  | listed h => exact h.elim
  | announced id => exact h.kept (kept_onStreamFrame s false id)
  | event => exact h.of_same rfl rfl rfl rfl rfl rfl fun _ he => mem_append_left _ he
  | skipped | counted => exact h.of_same rfl rfl rfl rfl rfl rfl fun _ he => he

theorem Notified.steps (h : Notified s owed) (hsteps : Steps quiet s s') : Notified s' owed := by
  induction hsteps with
  | refl => exact h
  | tail _ hstep ih => exact ih.sendStep hstep

theorem same_ack (half : Send) (frame : StreamMeta) : Same half (half.ack frame).2 := by
  unfold Send.ack
  split
  · exact ⟨rfl, rfl, SendBuffer.ack_offset _ _ _, fun hw => by cases hw⟩
  all_goals exact ⟨rfl, rfl, SendBuffer.ack_offset _ _ _, id⟩

theorem Notified.acks (h : Notified s owed) (hacks : Acks s s') : Notified s' owed := by
  have hfreed : ∀ id unackedData, Notified
      ((StreamsState.removeSend { s with unackedData } id).streamFreed id .send) owed := by
    intro id unackedData
    have hacked : Notified { s with unackedData } owed :=
      h.of_same rfl rfl rfl rfl rfl rfl fun _ he => he
    exact hacked.freed id
  cases hacks with
  | refl => exact h
  | @acked half frame hsend =>
    exact h.same ⟨rfl, rfl, rfl, rfl, rfl⟩ (getSend_of_send hsend) (same_ack half frame) rfl
      fun _ he => he
  | freed id unackedData => exact hfreed id unackedData
  | finished id unackedData ht =>
    exact (ht ▸ hfreed id unackedData).of_same rfl rfl rfl rfl rfl rfl
      fun _ he => mem_append_left _ he

theorem notified_setParams (h : Notified s owed) (params : StreamsState.PeerLimits)
    (hlimits : ∀ id half, id.initiator ≠ s.side → s.send id = some (some half) →
      half.maxData = params.initialMaxStreamDataBidiLocal) :
    Notified (s.setParams params) owed := by
  have hsend : (s.setParams params).send = s.send := by
    funext id
    rcases setParams_send s params id with heq | ⟨hpeer, heq⟩
    · exact heq
    · rw [heq]
      rcases hid : s.send id with _ | _ | half
      · rfl
      · rfl
      · have hside : id.initiator ≠ s.side := by
          rw [hpeer]
          cases s.side <;> decide
        rw [Option.map_some, Option.map_some, ← hlimits id half hside hid]
  -- A half that was not used yet gets other credit, but has not been written to.
  have hget : ∀ id half, (s.setParams params).getSend id = some half →
      s.getSend id = some half ∨ s.send id = some none ∧ half = .new half.maxData ∧
        s.getSend id = some (.new (s.maxSendData id)) := by
    intro id half hhalf
    rcases send_of_getSend hhalf with hid | ⟨hid, rfl⟩ <;> rw [hsend] at hid
    · exact .inl (getSend_of_send hid)
    · exact .inr ⟨hid, rfl, by simp [getSend, hid]⟩
  refine ⟨(seats_setParams s params).seated h.seated, fun id => ?_⟩
  have hnoted := h.noted id
  refine ⟨hnoted.listed, fun half hhalf => ?_, fun half hhalf => ?_, ?_,
    fun hid half hhalf hwritable => ?_⟩
  · rcases hget id half hhalf with hhalf | ⟨-, hnew, hhalf⟩
    · exact hnoted.flagged half hhalf
    · have hflag := hnoted.flagged _ hhalf
      rw [hnew]
      exact hflag
  · rcases hget id half hhalf with hhalf | ⟨-, hnew, -⟩
    · exact hnoted.limited half hhalf
    · rw [hnew]
      exact Nat.zero_le _
  · rw [hsend]
    exact hnoted.waited
  · rcases hget id half hhalf with hhalf | ⟨hblank, -⟩
    · exact hnoted.notified hid half hhalf hwritable
    · exact absurd hblank (hnoted.waited hid).2

end Quiet

section Loud

variable {s s' : StreamsState} {owed : List StreamId} {id : StreamId} {half : Send}

theorem count_concat_ne {j : StreamId} (hne : j ≠ id) (ids : List StreamId) :
    (ids ++ [id]).count j = ids.count j := by
  simp [hne.symm]

theorem mem_filter_ne {j : StreamId} : j ∈ owed.filter (· ≠ id) ↔ j ∈ owed ∧ j ≠ id := by
  simp

theorem Notified.block (h : Notified s owed) (half' : Send) (ht : Touched s s' id half')
    (hget : s.getSend id = some half) (hflag : half.connectionBlocked = false)
    (hflag' : half'.connectionBlocked = true) (hlimit : half'.offset ≤ half'.maxData)
    (hlist : s'.connectionBlocked = s.connectionBlocked ++ [id]) (hevents : s.events ⊆ s'.events)
    (howed : ∀ j ∈ owed', j ≠ id → j ∈ owed) : Notified s' owed' := by
  refine h.touched ht hget (fun j hne => ?_) ?_ hlimit (fun j _ he => hevents he) howed
    fun _ _ => .inl ?_
  · rw [hlist, count_concat_ne hne]
  · have hnot := (h.noted id).flagged half hget
    rw [hflag] at hnot
    rw [hlist, count_append, hnot, hflag', count_singleton_self]
    rfl
  · rw [hlist]
    exact mem_append_right _ mem_cons_self

theorem Notified.sublist (h : Notified s owed) (howed : ∀ j ∈ owed', j ∈ owed) : Notified s owed' :=
  ⟨h.seated, fun id => (h.noted id).of_same rfl le_rfl le_rfl rfl rfl rfl (fun he => he) (howed id)⟩

theorem notified_writeStream (h : Notified s owed) {data : Bytes} {result : Except WriteError Nat}
    (hwrite : writeStream s false id data = (result, s')) :
    Notified s' (afterWrite id owed result) := by
  have hafter : ∀ j ∈ afterWrite id owed result, j ≠ id → j ∈ owed := by
    intro j hj hne
    unfold afterWrite at hj
    split at hj
    · exact (mem_cons.mp hj).resolve_left hne
    · exact (mem_filter_ne.mp hj).1
  unfold writeStream at hwrite
  rw [if_neg Bool.false_ne_true] at hwrite
  rcases hget : s.getSend id with _ | half
  · simp only [hget] at hwrite
    cases hwrite
    exact h.sublist fun j hj => hafter j hj (mem_filter_ne.mp hj).2
  have hlimited := (h.noted id).limited half hget
  simp only [hget] at hwrite
  by_cases hlimit : s.writeLimit = 0
  · rw [if_pos hlimit] at hwrite
    rcases hflag : half.connectionBlocked with _ | _
    · rw [if_neg (by simp [hflag])] at hwrite
      cases hwrite
      refine h.block { half with connectionBlocked := true } ⟨rfl, rfl, rfl, ?_, rfl⟩ hget hflag rfl
        hlimited rfl (fun _ he => he) hafter
      simp [setSend]
    · rw [if_pos hflag] at hwrite
      cases hwrite
      exact h.moved ⟨rfl, rfl, rfl, rfl, rfl⟩ hget rfl rfl hlimited (fun _ he => he) hafter
        fun _ _ => .inl (((h.noted id).mem_iff hget).mpr hflag)
  · rw [if_neg hlimit] at hwrite
    rcases hsent : half.write data s.writeLimit with e | ⟨written, half'⟩
    · simp only [hsent] at hwrite
      cases hwrite
      refine h.moved ⟨rfl, rfl, rfl, rfl, rfl⟩ hget rfl rfl hlimited (fun _ he => he) hafter
        fun hid _ => .inr (.inr ?_)
      unfold Send.write at hsent
      split_ifs at hsent
      · cases hsent
        exact absurd rfl (mem_filter_ne.mp hid).2
      · split at hsent
        · cases hsent
          exact absurd rfl (mem_filter_ne.mp hid).2
        · dsimp only at hsent
          split_ifs at hsent with hbudget
          exact Nat.le_of_sub_eq_zero hbudget
    · simp only [hsent] at hwrite
      cases hwrite
      obtain ⟨-, -, _, hlen, heq⟩ := Send.write_eq_ok hsent
      have hflag : half'.connectionBlocked = half.connectionBlocked := by
        rw [heq]
        split_ifs <;> rfl
      have hfits : half'.offset ≤ half'.maxData := by
        rw [heq]
        split_ifs
        · exact hlimited
        · change half.pending.offset + (data.take written.bytes).length ≤ half.maxData
          rw [length_take_of_le hlen]
          have hoffset : half.offset = half.pending.offset := rfl
          omega
      refine h.moved ⟨rfl, rfl, rfl, ?_, rfl⟩ hget rfl hflag hfits (fun _ he => he) hafter
        fun hid _ => absurd rfl (mem_filter_ne.mp hid).2
      simp [setSend]

theorem notified_openStream (h : Notified s owed) (dir : Dir) :
    Notified (openStream s false dir).2 (afterOpen owed (openStream s false dir).1) := by
  have hseated := seated_openStream h.seated dir
  have hopens := opens s dir
  generalize openStream s false dir = r at hopens hseated ⊢
  cases hopens with
  | refused => exact h.of_same rfl rfl rfl rfl rfl rfl fun _ he => he
  | opened id hid =>
    refine ⟨hseated, fun j => ?_⟩
    rcases eq_or_ne j id with rfl | hne
    · refine noted_new (fun hmem => ?_) (fun hmem => (mem_filter_ne.mp hmem).2 rfl)
        fun half hhalf => ?_
      · have hlt := ((h.noted j).listed hmem).1 (by rw [hid])
        rw [hid] at hlt
        exact lt_irrefl _ hlt
      · simp only [getSend, update_self] at hhalf
        cases hhalf
        rfl
    · exact (h.noted j).of_same rfl (Accounts.le_update_add s.next dir 1 _) le_rfl
        (update_of_ne hne _ _) rfl rfl (fun he => he) fun hj => (mem_filter_ne.mp hj).1

theorem notified_receivedMaxStreamData (h : Notified s owed) {limit : Nat}
    (hreceived : s.receivedMaxStreamData id limit = .ok s') : Notified s' owed := by
  unfold receivedMaxStreamData at hreceived
  split at hreceived
  · cases hreceived
  rcases hget : s.getSend id with _ | half
  · simp only [hget] at hreceived
    split_ifs at hreceived
    cases hreceived
    exact h.kept (kept_onStreamFrame _ _ _)
  have hlimited := (h.noted id).limited half hget
  obtain ⟨unblocked, half', hincrease⟩ : ∃ unblocked half',
      half.increaseMaxData limit = (unblocked, half') := ⟨_, _, rfl⟩
  have hflag : half'.connectionBlocked = half.connectionBlocked := by
    unfold Send.increaseMaxData at hincrease
    split_ifs at hincrease <;> cases hincrease <;> rfl
  have hfits : half'.offset ≤ half'.maxData := by
    unfold Send.increaseMaxData at hincrease
    split_ifs at hincrease with hkeeps <;> cases hincrease
    · exact hlimited
    · exact le_trans hlimited (Nat.le_of_not_le (not_or.mp hkeeps).1)
  simp only [hget, hincrease] at hreceived
  rcases unblocked with _ | _
  · cases hreceived
    refine Notified.kept ?_ (kept_onStreamFrame _ _ _)
    refine h.moved ⟨rfl, rfl, rfl, rfl, rfl⟩ hget rfl hflag hfits (fun _ he => he)
      (fun _ hj _ => hj) fun hid hwritable => ?_
    -- Either the limit stays, or the stream had credit before.
    unfold Send.increaseMaxData at hincrease
    split_ifs at hincrease with hkeeps
    · cases hincrease
      exact (h.noted id).notified hid half hget hwritable
    · obtain ⟨hnot, rfl⟩ := Prod.mk.inj hincrease
      rcases (h.noted id).notified hid half hget hwritable with hmem | hmem | hle
      · exact .inl hmem
      · exact .inr (.inl hmem)
      · exact absurd (le_antisymm hlimited hle) (by simpa using hnot)
  · rw [if_pos rfl] at hreceived
    split_ifs at hreceived with hwritable hblocked <;> cases hreceived <;>
      refine Notified.kept ?_ (kept_onStreamFrame _ _ _)
    · exact h.moved ⟨rfl, rfl, rfl, rfl, rfl⟩ hget rfl hflag hfits
        (fun _ he => mem_append_left _ he) (fun _ hj _ => hj)
        fun _ _ => .inr (.inl (mem_append_right _ mem_cons_self))
    · refine h.block { half' with connectionBlocked := true } ⟨rfl, rfl, rfl, rfl, rfl⟩ hget ?_ rfl
        hfits rfl (fun _ he => he) fun _ hj _ => hj
      rw [← hflag]
      simpa using hblocked
    · refine h.moved ⟨rfl, rfl, rfl, rfl, rfl⟩ hget rfl hflag hfits (fun _ he => he)
        (fun _ hj _ => hj) fun _ _ => .inl (((h.noted id).mem_iff hget).mpr ?_)
      rw [← hflag]
      simpa using hblocked

theorem Notified.drop (h : Notified { s with connectionBlocked := (id :: ids).reverse } owed)
    (hgone : ∀ half, s.send id ≠ some (some half)) :
    Notified { s with connectionBlocked := ids.reverse } owed := by
  rw [reverse_cons] at h
  -- A half that was not used yet is not in the list, so this one has none.
  have hne : ∀ j half, s.getSend j = some half → j ≠ id := by
    rintro j half hj rfl
    have hcount := (h.noted j).flagged half hj
    rcases send_of_getSend hj with hsend | ⟨-, rfl⟩
    · exact hgone half hsend
    · rw [count_append, count_singleton_self] at hcount
      exact absurd hcount (Nat.succ_ne_zero _)
  refine ⟨⟨h.seated.ours, h.seated.theirs⟩, fun j => ?_⟩
  have hnoted := h.noted j
  by_cases hj : j = id
  · exact ⟨fun hmem => hnoted.listed (mem_append_left _ hmem),
      fun half hhalf => absurd hj (hne j half hhalf), hnoted.limited, hnoted.waited,
      fun _ half hhalf => absurd hj (hne j half hhalf)⟩
  · exact hnoted.of_same rfl le_rfl le_rfl rfl rfl (count_concat_ne hj _).symm (fun he => he)
      fun hj => hj

theorem Notified.unblock (h : Notified { s with connectionBlocked := (id :: ids).reverse } owed)
    (hsend : s.send id = some (some half)) (howed : ∀ j ∈ owed', j ≠ id → j ∈ owed)
    (hwhy : id ∈ owed' → half.isWritable = true → half.maxData ≤ half.offset) :
    Notified { s.setSend id { half with connectionBlocked := false } with
      connectionBlocked := ids.reverse } owed' := by
  rw [reverse_cons] at h
  have hget : s.getSend id = some half := getSend_of_send hsend
  have hcount := (h.noted id).flagged half hget
  rw [count_append, count_singleton_self] at hcount
  have hle : half.connectionBlocked.toNat ≤ 1 := Bool.toNat_le _
  have ht : Touched { s with connectionBlocked := ids.reverse ++ [id] }
      { s.setSend id { half with connectionBlocked := false } with
        connectionBlocked := ids.reverse } id { half with connectionBlocked := false } :=
    ⟨rfl, rfl, rfl, rfl, rfl⟩
  refine h.touched ht hget (fun j hne => (count_concat_ne hne _).symm) ?_
    ((h.noted id).limited half hget) (fun _ _ he => he) howed fun hid hwritable => ?_
  · change ids.reverse.count id = 0
    omega
  · exact .inr (.inr (hwhy hid hwritable))

theorem notified_pollBlocked (ids : List StreamId)
    (h : Notified { s with connectionBlocked := ids.reverse } owed) :
    Notified (s.pollBlocked ids).2 (afterPoll owed ((s.pollBlocked ids).1.map .writable)) := by
  induction ids generalizing s with
  | nil => exact h
  | cons _ _ ih =>
    unfold pollBlocked
    split
    · rename_i half hsend
      split_ifs with hreport
      · refine h.unblock hsend (fun j hj _ => (mem_filter_ne.mp hj).1) fun hid _ => ?_
        exact absurd rfl (mem_filter_ne.mp hid).2
      · refine ih (h.unblock hsend (fun j hj _ => hj) fun _ hwritable => ?_)
        rw [hwritable, Bool.true_and, decide_eq_true_eq] at hreport
        exact le_of_not_gt hreport
    · rename_i hsend
      exact ih (h.drop fun half => hsend half)

theorem Notified.tail (h : Notified s owed) :
    Notified { s with events := s.events.tail } (afterPoll owed s.events.head?) := by
  have hafter : ∀ j ∈ afterPoll owed s.events.head?, j ∈ owed ∧
      (.writable j ∈ s.events → .writable j ∈ s.events.tail) := by
    intro j hj
    rcases hevents : s.events with _ | ⟨event, _⟩
    · rw [hevents] at hj
      exact ⟨hj, id⟩
    · rw [hevents, head?_cons] at hj
      have htaken : j ∈ owed ∧ event ≠ .writable j := by
        unfold afterPoll at hj
        split at hj
        · rename_i id heq
          cases heq
          obtain ⟨hj, hne⟩ := mem_filter_ne.mp hj
          exact ⟨hj, fun heq => hne (StreamEvent.writable.inj heq).symm⟩
        · rename_i hother
          exact ⟨hj, fun heq => hother j (by rw [heq])⟩
      exact ⟨htaken.1, fun he => (mem_cons.mp he).resolve_left htaken.2.symm⟩
  refine ⟨⟨h.seated.ours, h.seated.theirs⟩, fun j => ?_⟩
  have hnoted := h.noted j
  refine ⟨hnoted.listed, hnoted.flagged, hnoted.limited, fun hj => hnoted.waited (hafter j hj).1,
    fun hj half hhalf hwritable => ?_⟩
  exact (hnoted.notified (hafter j hj).1 half hhalf hwritable).imp_right
    (Or.imp_left (hafter j hj).2)

theorem notified_poll (h : Notified s owed) : Notified s.poll.2 (afterPoll owed s.poll.1) := by
  unfold poll
  split
  · exact h.of_same rfl rfl rfl rfl rfl rfl fun _ he => he
  · have hblocked : Notified (if 0 < s.writeLimit then s.pollBlocked s.connectionBlocked.reverse
        else (none, s)).2 (afterPoll owed ((if 0 < s.writeLimit then
          s.pollBlocked s.connectionBlocked.reverse else (none, s)).1.map .writable)) := by
      split_ifs
      · refine notified_pollBlocked _ ?_
        rw [reverse_reverse]
        exact h
      · exact h
    generalize (if 0 < s.writeLimit then _ else _) = r at hblocked ⊢
    obtain ⟨blocked, t⟩ := r
    rcases blocked with _ | _
    · exact Notified.tail hblocked
    · exact hblocked

theorem notified_rejected (h : Notified s owed)
    (hflags : ∀ id half, id.initiator ≠ s.side → s.send id = some (some half) →
      half.connectionBlocked = false) : Notified (rejected s) owed := by
  have hsend : ∀ id half, (rejected s).send id = some half → id.initiator ≠ s.side ∧
      s.send id = some half := by
    intro id half hid
    simp only [rejected] at hid
    split_ifs at hid with hown
    exact ⟨fun hside => hown (h.seated.ours id hside (by simp [hid])), hid⟩
  have hget : ∀ id half, (rejected s).getSend id = some half → s.getSend id = some half ∧
      half.connectionBlocked = false := by
    intro id half hid
    obtain ⟨slot, hslot, hhalf⟩ := Option.map_eq_some_iff.mp hid
    obtain ⟨hside, hslot⟩ := hsend id slot hslot
    refine ⟨?_, ?_⟩
    · rw [getSend, hslot, ← hhalf]
      rfl
    · rcases slot with _ | half'
      · rw [← hhalf]
        rfl
      · cases hhalf
        exact hflags id half' hside hslot
  refine ⟨seated_rejected h.seated, fun id => ?_⟩
  have hnoted := h.noted id
  refine ⟨fun hid => absurd hid not_mem_nil, fun half hhalf => ?_, fun half hhalf => ?_,
    fun hid => ⟨(hnoted.waited hid).1,
      fun hblank => (hnoted.waited hid).2 (hsend id none hblank).2⟩,
    fun hid half hhalf hwritable => ?_⟩
  · rw [(hget id half hhalf).2]
    rfl
  · exact hnoted.limited half (hget id half hhalf).1
  · obtain ⟨hhalf, hflag⟩ := hget id half hhalf
    have hnot : id ∉ s.connectionBlocked := by
      rw [hnoted.mem_iff hhalf, hflag]
      exact Bool.false_ne_true
    exact .inr ((hnoted.notified hid half hhalf hwritable).resolve_left hnot)

end Loud

section Poll

variable {s s' : StreamsState} {owed : List StreamId} {id : StreamId} {half : Send}

theorem pollAll_isSome (fuel : Nat) (s : StreamsState) (h : signalCount s < fuel) :
    ∃ events, pollAll fuel s = some events := by
  induction fuel generalizing s with
  | zero => exact absurd h (Nat.not_lt_zero _)
  | succ _ ih =>
    have hcount := poll_signalCount s
    unfold pollAll
    generalize s.poll = r at hcount ⊢
    rcases r with ⟨_ | event, s'⟩
    · exact ⟨[], rfl⟩
    · simp only [Option.toList_some, length_cons, length_nil] at hcount
      obtain ⟨events, hevents⟩ := ih s' (by omega)
      exact ⟨event :: events, by simp [hevents]⟩

structure SameCredit (s s' : StreamsState) : Prop where
  writeLimit : s'.writeLimit = s.writeLimit
  half : ∀ id half, s.getSend id = some half → ∃ half', s'.getSend id = some half' ∧
    half'.maxData = half.maxData ∧ half'.offset = half.offset ∧ half'.isWritable = half.isWritable

theorem sameCredit_poll (s : StreamsState) : SameCredit s s.poll.2 := by
  have hkept : ∀ send : StreamId → Option (Option Send),
      (∀ id, (getSend { s with send } id).map lower = (s.getSend id).map lower) →
        ∀ id half, s.getSend id = some half → ∃ half', getSend { s with send } id = some half' ∧
          half'.maxData = half.maxData ∧ half'.offset = half.offset ∧
          half'.isWritable = half.isWritable := by
    intro send hsend id half hhalf
    have heq := hsend id
    rw [hhalf] at heq
    obtain ⟨half', hhalf', hlower⟩ := Option.map_eq_some_iff.mp heq
    exact ⟨half', hhalf', (congrArg Send.maxData hlower :), (congrArg Send.offset hlower :),
      (congrArg Send.isWritable hlower :)⟩
  have hpoll : Polls s s.poll.1 s.poll.2 := poll_spec rfl
  generalize s.poll.1 = event, s.poll.2 = s' at hpoll ⊢
  cases hpoll with
  | opened => exact ⟨rfl, fun _ half h => ⟨half, h, rfl, rfl, rfl⟩⟩
  | writable hsend | event _ hsend => exact ⟨rfl, hkept _ hsend⟩

/-- When `poll` returns `None` there is neither a stream with credit nor an event left. -/
theorem poll_none (hlimit : 0 < s.writeLimit) (h : s.poll.1 = none) :
    s.poll.2.connectionBlocked = [] ∧ s.poll.2.events = [] := by
  have hpoll : Polls s s.poll.1 s.poll.2 := poll_spec rfl
  rw [h] at hpoll
  generalize s.poll.2 = s' at hpoll ⊢
  cases hpoll with
  | event hevent _ _ _ hall =>
    rw [List.head?_eq_none_iff] at hevent
    exact ⟨hall hlimit, by rw [hevent]; rfl⟩

/-- A stream with credit is reported by the calls up to `None`. -/
theorem pollAll_reports (fuel : Nat) (hfuel : signalCount s < fuel) (h : Notified s owed)
    (hid : id ∈ owed) (hget : s.getSend id = some half) (hwritable : half.isWritable = true)
    (hcredit : half.offset < half.maxData) (hlimit : 0 < s.writeLimit) :
    ∃ events, pollAll fuel s = some events ∧ .writable id ∈ events := by
  induction fuel generalizing s owed half with
  | zero => exact absurd hfuel (Nat.not_lt_zero _)
  | succ fuel ih =>
    have hcount := poll_signalCount s
    have hnext := notified_poll h
    have hsame := sameCredit_poll s
    have hnone := poll_none hlimit
    unfold pollAll
    generalize s.poll = r at hcount hnext hsame hnone ⊢
    obtain ⟨event, s'⟩ := r
    dsimp only at hcount hnext hsame hnone ⊢
    obtain ⟨half', hget', _, _, hwritable'⟩ := hsame.half id half hget
    rcases event with _ | event
    · -- All lists are empty, but the stream must be in one of them.
      obtain ⟨hlist, hevents⟩ := hnone rfl
      rcases (hnext.noted id).notified hid half' hget'
        (hwritable'.trans hwritable) with hmem | hmem | _
      · rw [hlist] at hmem
        cases hmem
      · rw [hevents] at hmem
        cases hmem
      · omega
    · simp only [Option.toList_some, length_cons, length_nil] at hcount
      by_cases hevent : event = .writable id
      · obtain ⟨events, hevents⟩ := pollAll_isSome fuel s' (by omega)
        exact ⟨event :: events, by simp [hevents], by simp [hevent]⟩
      · have hstill : id ∈ afterPoll owed (some event) := by
          unfold afterPoll
          split
          · rename_i j heq
            cases heq
            exact mem_filter_ne.mpr ⟨hid, fun heq => hevent (by rw [heq])⟩
          · exact hid
        obtain ⟨events, hevents, hmem⟩ := ih (by omega) hnext hstill hget'
          (hwritable'.trans hwritable) (by omega) (by rw [hsame.writeLimit]; exact hlimit)
        exact ⟨event :: events, by simp [hevents], mem_cons_of_mem _ hmem⟩

end Poll

section Runs

variable {x x' : Party × List StreamId} {op : Operation}

/-- Where the limits or the queues of streams of the peer change, none of them is in use
with another limit, or waits for credit of the connection. -/
def Undisturbed (x : Party × List StreamId) : Operation → Prop
  | .setParams params => ∀ id half, id.initiator ≠ x.1.streams.side →
      x.1.streams.send id = some (some half) →
      half.maxData = params.initialMaxStreamDataBidiLocal
  | .zeroRttRejected => ∀ id half, id.initiator ≠ x.1.streams.side →
      x.1.streams.send id = some (some half) → half.connectionBlocked = false
  | _ => True

theorem notified_initial (h : watched.initial x) : Notified x.1.streams x.2 := by
  obtain ⟨p, _⟩ := x
  obtain ⟨⟨side, maxRemoteUni, maxRemoteBi, sendWindow, receiveWindow, streamReceiveWindow, hp⟩,
    howed⟩ := h
  subst hp howed
  have hrest : (new side maxRemoteUni maxRemoteBi sendWindow receiveWindow
      streamReceiveWindow).connectionBlocked = [] := by
    unfold new
    rw [insertRemote_rest, insertRemote_rest]
  refine ⟨seated_new side _ _ _ _ _, fun id => noted_new ?_ not_mem_nil fun half hhalf => ?_⟩
  · rw [hrest]
    exact not_mem_nil
  · simp only [getSend, send_new] at hhalf
    split_ifs at hhalf <;> cases hhalf
    rfl

theorem notified_step (h : Notified x.1.streams x.2) (hop : Undisturbed x op)
    (hstep : watched.step x op = some x') : Notified x'.1.streams x'.2 := by
  obtain ⟨hstep, howed⟩ := System.observed_step_eq_some hstep
  have heffect := step_effect hstep
  rw [howed]
  generalize x'.1.streams = s' at heffect ⊢
  cases heffect with
  | kept _ _ hspares hkept =>
    have howing : owing x.1 op x.2 = x.2 := by
      cases op with
      | call c => cases c <;> first | rfl | cases hspares
      | _ => rfl
    rw [howing]
    exact h.kept hkept
  | accept dir =>
    have haccepted := h.kept (kept_acceptStream x.1.streams dir)
    exact haccepted.of_same rfl rfl rfl rfl rfl rfl fun _ he => he
  | openStream dir => exact notified_openStream h dir
  | write => exact notified_writeStream h rfl
  | finish => exact h.steps (steps_finishStream trivial trivial)
  | reset pending _ errorCode => exact h.steps (steps_resetStream trivial pending errorCode)
  | poll => exact notified_poll h
  | sendWindow | maxData => exact h.of_same rfl rfl rfl rfl rfl rfl fun _ he => he
  | setPriority id priority => exact h.steps (steps_setPriority _ id priority)
  | stopSending _ id errorCode => exact h.steps (steps_receivedStopSending _ id errorCode)
  | maxStreamData _ _ _ _ hreceived => exact notified_receivedMaxStreamData h hreceived
  | maxStreams _ _ _ _ hreceived =>
    unfold receivedMaxStreams at hreceived
    split_ifs at hreceived <;> cases hreceived
    · exact h.of_same rfl rfl rfl rfl rfl rfl fun _ he => mem_append_left _ he
    · exact h
  | transmit _ _ _ hkept =>
    exact (h.kept hkept).steps (steps_writeStreamFrames trivial _ _ _ _)
  | ackOf => exact h.acks (acks_receivedAckOf _ _)
  | resetAcked id => exact h.acks (acks_resetAcked _ id)
  | retransmit => exact h.steps (steps_retransmit trivial _ trivial)
  | setParams params => exact notified_setParams h params hop
  | rewound => exact h.steps (steps_retransmitAllFor0rtt trivial (fun _ => trivial) _)
  | rejected _ hrejected =>
    rw [(zeroRttRejected_eq_some_iff.mp hrejected).2]
    exact notified_rejected h hop

end Runs

/-- A stream whose last write was blocked and that has credit again is reported by the calls
of `poll` up to `None`, unless it was reported before; and the streams with the flag are those
in the list, each of them once. -/
theorem blocked_reported {x : Party × List StreamId} (hx : watched.ReachableVia Undisturbed x) :
    (∀ id ∈ x.2, ∀ half, x.1.streams.getSend id = some half → half.isWritable = true →
      half.offset < half.maxData → 0 < x.1.streams.writeLimit →
      ∃ fuel events, pollAll fuel x.1.streams = some events ∧ .writable id ∈ events) ∧
    ∀ id half, x.1.streams.getSend id = some half →
      (half.connectionBlocked = true ↔ id ∈ x.1.streams.connectionBlocked) ∧
      (id ∈ x.1.streams.connectionBlocked → x.1.streams.connectionBlocked.count id = 1) := by
  have hnotified : Notified x.1.streams x.2 :=
    hx.invariant (fun _ => notified_initial) fun _ _ _ => notified_step
  constructor
  · intro id hid half hget hwritable hcredit hlimit
    exact ⟨_, pollAll_reports _ (Nat.lt_succ_self _) hnotified hid hget hwritable hcredit hlimit⟩
  · intro id half hget
    have hmem := (hnotified.noted id).mem_iff hget
    refine ⟨hmem.symm, fun hid => ?_⟩
    rw [(hnotified.noted id).flagged half hget, hmem.mp hid]
    rfl

theorem client_initial : watched.initial (client, []) :=
  ⟨⟨_, _, _, _, _, _, rfl⟩, rfl⟩

theorem client_undisturbed (op : Operation) : Undisturbed (client, []) op := by
  have hblank : ∀ id half, client.streams.send id ≠ some (some half) := by
    intro id half hid
    rw [client, send_new] at hid
    split_ifs at hid
    cases hid
  cases op with
  | setParams | zeroRttRejected => exact fun id half _ hid => absurd hid (hblank id half)
  | _ => trivial

/-- Limits with this credit on a stream that the peer opens, and on the connection. -/
def remembered (stream connection : Nat) : Operation :=
  .setParams ⟨100, stream, 5, 1, 1, connection⟩

/-- A stream without credit, which both limits give it in turn. -/
theorem blockedStream_reported :
    ∃ x, watched.ReachableVia Undisturbed x ∧ (⟨.client, .bi, 0⟩ : StreamId) ∈ x.2 ∧
      ∃ fuel events, pollAll fuel x.1.streams = some events ∧
        .writable ⟨.client, .bi, 0⟩ ∈ events := by
  have hcheck : ∀ x op, (op matches .call _ | .receive _ _) = true → Undisturbed x op := by
    intro x op hcheck
    cases op with
    | setParams => cases hcheck
    | zeroRttRejected => cases hcheck
    | _ => trivial
  have hstart : watched.ReachableVia Undisturbed _ :=
    .step (.initial client_initial) (client_undisturbed (remembered 0 5)) rfl
  refine hstart.exists_of_runChecked hcheck [.call (.openStream .bi),
    .call (.write ⟨.client, .bi, 0⟩ (replicate 9 7)), .call (.write ⟨.client, .bi, 0⟩ [7]),
    .receive 10 (.maxStreamData ⟨.client, .bi, 0⟩ 9), .receive 10 (.maxData 9)]
    ⟨_, rfl, fun hreach => ⟨mem_cons_self, ?_⟩⟩
  exact (blocked_reported hreach).1 _ mem_cons_self _ rfl rfl (by decide) (by decide)

/-- A stream of the peer gets credit from the transport parameters without an event, and one
that waits for credit of the connection is forgotten when early data is rejected. -/
theorem peerStream_unreported : (∃ x, watched.Reachable x ∧ (⟨.server, .bi, 0⟩ : StreamId) ∈ x.2 ∧
      (∃ half, x.1.streams.getSend ⟨.server, .bi, 0⟩ = some half ∧ half.isWritable = true ∧
        half.offset < half.maxData) ∧
      0 < x.1.streams.writeLimit ∧ pollAll 1 x.1.streams = some []) ∧
    ∃ x, watched.Reachable x ∧ (⟨.server, .bi, 0⟩ : StreamId) ∈ x.2 ∧
      (∃ half, x.1.streams.getSend ⟨.server, .bi, 0⟩ = some half ∧ half.isWritable = true ∧
        half.offset < half.maxData ∧ half.connectionBlocked = true) ∧
      x.1.streams.connectionBlocked = [] ∧
      0 < x.1.streams.writeLimit ∧ pollAll 1 x.1.streams = some [] := by
  have hinitial : watched.Reachable (client, []) := .initial client_initial
  constructor
  · refine hinitial.exists_of_run
      [remembered 0 100, .call (.write ⟨.server, .bi, 0⟩ [7]), remembered 100 100] ?_
    exact ⟨_, rfl, mem_cons_self, ⟨_, rfl, rfl, by decide⟩, by decide, rfl⟩
  · refine hinitial.exists_of_run [remembered 100 0, .call (.write ⟨.server, .bi, 0⟩ [7]),
      .zeroRttRejected, remembered 100 100] ?_
    exact ⟨_, rfl, mem_cons_self, ⟨_, rfl, rfl, by decide, rfl⟩, rfl, by decide, rfl⟩

end Quac.WriteNotify
