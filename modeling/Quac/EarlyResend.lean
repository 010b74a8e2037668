import Quac.EarlyHistory

/-!
A client that has to retry sends its early data again.  The streams still hold all that
was written to them, and `retransmit_all_for_0rtt` lets them begin anew; it passes over a
stream that was finished without data and whose FIN is already on its way.
-/

namespace Quac.EarlyResend

open EarlyHistory Function
open FreshStart hiding Inv inv_step
open Identifiers Lib.Transition RecvHalf SendData SendHalf SendSteps
open StreamParty hiding State step system
open StreamQueue
open StreamSchedule hiding remembered Inv inv_initial inv_step
open StreamSession hiding client
open StreamTransmit Streams TransmitShape UnackedBuffers PendingStreamsQueue List

variable {s : StreamsState} {id : StreamId} {half half' : Send} {sent : List StreamsFrame}

def rewound : Option (Option Send) → Option (Option Send)
  | some (some half) =>
    if half.pending.isFullyAcked && !half.finPending then some (some half)
    else some (some { half with pending := half.pending.retransmitAllFor0rtt })
  | slot => slot

theorem send_rewind (s : StreamsState) (id j : StreamId) :
    (s.rewind id).send j = if j = id then rewound (s.send j) else s.send j := by
  unfold StreamsState.rewind
  rcases hsend : s.send id with _ | _ | half
  iterate 2
    split_ifs with hj
    · rw [hj, hsend]
      rfl
    · rfl
  · dsimp only
    by_cases hskip : (half.pending.isFullyAcked && !half.finPending) = true
    · split_ifs with hj
      · rw [hj, hsend, rewound, if_pos hskip]
      · rfl
    · rw [if_neg hskip]
      rcases eq_or_ne j id with rfl | hj
      · rw [if_pos rfl, hsend, rewound, if_neg hskip]
        exact update_self _ _ _
      · rw [if_neg hj]
        exact update_of_ne hj _ _

theorem rewind_range (s : StreamsState) (dir : Dir) (count : Nat) :
    ((range count).foldl (fun s i => s.rewind ⟨.client, dir, i⟩) s).next = s.next ∧
      ∀ j, ((range count).foldl (fun s i => s.rewind ⟨.client, dir, i⟩) s).send j =
        if j.initiator = .client ∧ j.dir = dir ∧ j.index < count then rewound (s.send j)
        else s.send j := by
  induction count with
  | zero => simp
  | succ count ih =>
    obtain ⟨hnext, hsend⟩ := ih
    rw [range_succ, foldl_append, foldl_cons, foldl_nil]
    generalize (range count).foldl _ s = t at hnext hsend ⊢
    refine ⟨(Seats.of_steps (steps_rewind trivial t trivial)).next.trans hnext, fun j => ?_⟩
    rw [send_rewind, hsend]
    obtain ⟨initiator, dir', index⟩ := j
    simp only [StreamId.mk.injEq]
    by_cases hlast : initiator = .client ∧ dir' = dir ∧ index = count
    · -- The stream was not among those before it.
      obtain ⟨rfl, rfl, rfl⟩ := hlast
      rw [if_pos ⟨rfl, rfl, rfl⟩, if_neg (fun h => lt_irrefl _ h.2.2),
        if_pos ⟨rfl, rfl, Nat.lt_succ_self _⟩]
    · rw [if_neg hlast]
      by_cases hin : initiator = .client ∧ dir' = dir ∧ index < count
      · rw [if_pos hin, if_pos ⟨hin.1, hin.2.1, Nat.lt_succ_of_lt hin.2.2⟩]
      · rw [if_neg hin, if_neg]
        rintro ⟨hclient, hdir, hlt⟩
        rcases Nat.lt_succ_iff_lt_or_eq.mp hlt with hlt | heq
        · exact hin ⟨hclient, hdir, hlt⟩
        · exact hlast ⟨hclient, hdir, heq⟩

theorem send_retransmitAllFor0rtt (s : StreamsState) (id : StreamId) :
    s.retransmitAllFor0rtt.send id =
      if id.initiator = .client ∧ id.index < s.next id.dir then rewound (s.send id)
      else s.send id := by
  unfold StreamsState.retransmitAllFor0rtt
  simp only [Dir.all, foldl_cons, foldl_nil]
  obtain ⟨hnext, hsend⟩ := rewind_range s .bi (s.next .bi)
  generalize (range (s.next .bi)).foldl _ s = t at hnext hsend ⊢
  rw [(rewind_range t .uni (t.next .uni)).2, hsend, hnext]
  obtain ⟨_, dir, _⟩ := id
  cases dir <;> simp

section Flush

structure Packet where
  len : Nat
  maxSize : Nat
  fair : Bool

def writeFrames (s : StreamsState) (packet : Packet) : Writer :=
  (writeStreamFrames packet.maxSize packet.fair
    (packet.maxSize + s.pending.streams.length + 1) ⟨packet.len, s, .empty, [], false⟩).2

def flush (s : StreamsState) : List Packet → List StreamsFrame × StreamsState
  | [] => ([], s)
  | packet :: rest =>
    let w := writeFrames s packet
    let (frames, s) := flush w.streams rest
    (w.frames ++ frames, s)

def Appears (frames : List StreamsFrame) (id : StreamId) (n : Nat) (byte : UInt8) : Prop :=
  ∃ frame : StreamFrame, .stream frame ∈ frames ∧ frame.id = id ∧ frame.offset ≤ n ∧
    frame.data[n - frame.offset]? = some byte

def FinAppears (frames : List StreamsFrame) (id : StreamId) : Prop :=
  ∃ frame : StreamFrame, .stream frame ∈ frames ∧ frame.id = id ∧ frame.fin = true

variable {frames frames' : List StreamsFrame} {start : Send}

/-- From `start`, a half that begins anew, what was sent since is in the frames. -/
structure Progress (start half : Send) (id : StreamId) (frames : List StreamsFrame) : Prop where
  intact : Intact half
  state : half.state = start.state
  content : content half.pending = content start.pending
  bytes : ∀ n < half.pending.unsent, ∀ byte,
    (UnackedBuffers.content start.pending)[n]? = some byte →
    Appears frames id n byte
  fin : start.state ≠ .ready → 0 < (UnackedBuffers.content start.pending).length →
    half.pending.unsent = half.pending.offset → FinAppears frames id
  due : start.finPending = true → half.finPending = true ∨ FinAppears frames id

theorem Appears.mono {n : Nat} {byte : UInt8} (h : Appears frames id n byte)
    (hsub : frames ⊆ frames') : Appears frames' id n byte := by
  obtain ⟨frame, hframe, hrest⟩ := h
  exact ⟨frame, hsub hframe, hrest⟩

theorem FinAppears.mono (h : FinAppears frames id) (hsub : frames ⊆ frames') :
    FinAppears frames' id := by
  obtain ⟨frame, hframe, hrest⟩ := h
  exact ⟨frame, hsub hframe, hrest⟩

theorem Progress.mono (h : Progress start half id frames) (hsub : frames ⊆ frames') :
    Progress start half id frames' where
  intact := h.intact
  state := h.state
  content := h.content
  bytes n hn byte hbyte := (h.bytes n hn byte hbyte).mono hsub
  fin hstate hpos hend := (h.fin hstate hpos hend).mono hsub
  due hfin := (h.due hfin).imp_right fun h => h.mono hsub

theorem Progress.frame {maxLen first stop : Nat} {encodeLength fin : Bool} {buffer : SendBuffer}
    (h : Progress start half id frames) (hreset : start.isReset = false)
    (hpoll : half.pending.pollTransmit maxLen = ((first, stop), encodeLength, buffer))
    (hfin : fin = true ↔ stop = buffer.offset ∧ ∃ finishAcked, half.state = .dataSent finishAcked) :
    Progress start { half with pending := buffer, finPending := half.finPending && !fin } id
      (frames ++ [.stream ⟨id, first, fin, buffer.copyRange (stop - first) first stop⟩]) := by
  have hmono := h.mono (subset_append_left frames
    [.stream ⟨id, first, fin, buffer.copyRange (stop - first) first stop⟩])
  have hwhole := h.intact.whole.pollTransmit hpoll
  obtain ⟨_, hstop, -⟩ := h.intact.whole.carries.pollTransmit hpoll
  obtain ⟨hcontent, -, hoffset⟩ := content_pollTransmit hpoll
  have hlast : fin = true → FinAppears (frames ++ [.stream ⟨id, first, fin,
      buffer.copyRange (stop - first) first stop⟩]) id := fun hfin =>
    ⟨_, mem_append_right _ (mem_singleton.mpr rfl), rfl, hfin⟩
  refine ⟨⟨hwhole, fun hpending => h.intact.fin (Bool.and_eq_true_iff.mp hpending).1⟩, h.state,
    hcontent.trans h.content, fun n hn byte hbyte => ?_, fun hstate hpos hend => ?_, fun hdue => ?_⟩
  · rcases pollTransmit_unsent hpoll with hsame | ⟨rfl, hsent⟩
    · exact hmono.bytes n (by rwa [← hsame]) byte hbyte
    · rcases Nat.lt_or_ge n half.pending.unsent with hlt | hge
      · exact hmono.bytes n hlt byte hbyte
      · rw [hsent] at hn
        refine ⟨_, mem_append_right _ (mem_singleton.mpr rfl), rfl, hge, ?_⟩
        have hlen : stop ≤ buffer.offset := by
          rw [← hwhole.length, hcontent]
          exact hstop
        rw [hwhole.getElem?_copyRange hge hn hlen, hcontent, h.content]
        exact hbyte
  · rcases pollTransmit_unsent hpoll with hsame | ⟨-, hsent⟩
    · exact hmono.fin hstate hpos (by rw [← hsame, hend, hoffset])
    · refine hlast (hfin.mpr ⟨hsent.symm.trans hend, ?_⟩)
      rw [h.state]
      rcases hs : start.state with _ | finishAcked | _
      · exact absurd hs hstate
      · exact ⟨finishAcked, rfl⟩
      · simp [Send.isReset, hs] at hreset
  · rcases h.due hdue with hpending | happears
    · rcases hf : fin with _ | _
      · exact .inl (by simp [hpending])
      · exact .inr (hf ▸ hlast hf)
    · exact .inr (happears.mono (subset_append_left _ _))

def Underway (start : Send) (id : StreamId) (s : StreamsState)
    (frames : List StreamsFrame) : Prop :=
  ∃ half, s.send id = some (some half) ∧ Progress start half id frames

theorem underway_writeStreamFrame {w : Writer} {j : StreamId} (hreset : start.isReset = false)
    (h : Underway start id w.streams (frames ++ w.frames))
    (hsend : w.streams.send j = some (some half)) (maxSize : Nat) (fair : Bool) :
    Underway start id (writeStreamFrame maxSize fair w j half).2.streams
      (frames ++ (writeStreamFrame maxSize fair w j half).2.frames) := by
  obtain ⟨_, _, _, _, _, half', hpoll, hfin, hhalf', hstreams, hframes, -⟩ :=
    writeStreamFrame_spec maxSize fair w j half
  obtain ⟨half₀, hid, hprogress⟩ := h
  rw [hframes, ← append_assoc]
  rcases eq_or_ne id j with rfl | hne
  · cases hsend.symm.trans hid
    refine ⟨half', ?_, ?_⟩
    · rw [hstreams]
      exact update_self _ _ _
    · rw [hhalf']
      exact hprogress.frame hreset hpoll hfin
  · refine ⟨half₀, ?_, hprogress.mono (subset_append_left _ _)⟩
    rw [hstreams]
    exact (update_of_ne hne _ _).trans hid

theorem underway_writeFrames (hreset : start.isReset = false) (h : Underway start id s frames)
    (packet : Packet) :
    Underway start id (writeFrames s packet).streams (frames ++ (writeFrames s packet).frames) := by
  refine writeStreamFrames_invariant (fun w => Underway start id w.streams (frames ++ w.frames))
    ?_ ?_ _ ?_
  · exact fun w q queue hw _ _ => hw
  · intro w q queue half hw _ _ hsend _
    exact underway_writeStreamFrame (w := taken w queue) hreset hw hsend _ _
  · rw [append_nil]
    exact h

theorem underway_flush (hreset : start.isReset = false) (h : Underway start id s frames)
    (packets : List Packet) :
    Underway start id (flush s packets).2 (frames ++ (flush s packets).1) := by
  induction packets generalizing s frames with
  | nil =>
    rw [flush, append_nil]
    exact h
  | cons packet _ ih =>
    have hrest := ih (underway_writeFrames hreset h packet)
    rw [append_assoc] at hrest
    exact hrest

theorem scheduled_flush (h : Scheduled s.send s.pending) (packets : List Packet) :
    Scheduled (flush s packets).2.send (flush s packets).2.pending := by
  induction packets generalizing s with
  | nil => exact h
  | cons packet _ ih =>
    exact ih (scheduled_steps h
      (steps_writeStreamFrames trivial _ _ _ ⟨packet.len, s, .empty, [], false⟩))

theorem Underway.done (h : Underway start id s frames) (hreset : start.isReset = false)
    (hscheduled : Scheduled s.send s.pending) (hempty : queued s.pending = []) :
    (∀ n byte, (content start.pending)[n]? = some byte → Appears frames id n byte) ∧
      (start.state ≠ .ready → content start.pending ≠ [] ∨ start.finPending = true →
        FinAppears frames id) := by
  obtain ⟨half, hsend, hprogress⟩ := h
  have hreset' : half.isReset = false := by
    unfold Send.isReset at hreset ⊢
    rw [hprogress.state]
    exact hreset
  have hidle : half.isPending = false := by
    by_contra hpending
    have hqueued := hscheduled id half hsend ⟨hreset', Bool.eq_true_of_not_eq_false hpending⟩
    rw [hempty] at hqueued
    exact absurd hqueued not_mem_nil
  obtain ⟨hsent, hfin⟩ := Bool.or_eq_false_iff.mp hidle
  have hend : half.pending.unsent = half.pending.offset := by
    simpa using (Bool.or_eq_false_iff.mp hsent).1
  have hlength : (content start.pending).length = half.pending.offset := by
    rw [← hprogress.content]
    exact hprogress.intact.whole.length
  refine ⟨fun n byte hbyte => hprogress.bytes n ?_ byte hbyte, fun hstate hdue => ?_⟩
  · rw [hend, ← hlength]
    exact (List.getElem?_eq_some_iff.mp hbyte).1
  · rcases hdue with hdata | hdue
    · exact hprogress.fin hstate (length_pos_iff.mpr hdata) hend
    · rcases hprogress.due hdue with hpending | happears
      · cases hfin.symm.trans hpending
      · exact happears

end Flush

section Effort

variable {frames : List StreamsFrame} {q q' : PendingStreamsQueue}

theorem pop_eq_none_iff : q.pop = none ↔ queued q = [] := by
  obtain ⟨streams, next, _⟩ := q
  rcases next with _ | p
  · rcases streams with _ | ⟨p, _⟩
    · simp [pop, queued]
    · simp [pop, queued]
  · simp [pop, queued]

theorem length_queued_requeued (hnext : q.next = none) (fair : Bool) (id : StreamId) (half : Send) :
    (queued (requeued fair q id half)).length =
      (queued q).length + if half.isPending then 1 else 0 := by
  unfold requeued
  split_ifs
  · exact (queued_pushPending_perm q id half.priority).length_eq
  · simp [queued, reinsertPending, hnext]
  · rfl

def halfEffort (half : Send) : Nat :=
  effort half.pending + if half.finPending then 1 else 0

def streamEffort (s : StreamsState) (id : StreamId) : Nat :=
  match s.send id with
  | some (some half) => halfEffort half
  | _ => 0

def backlog (s : StreamsState) : Nat :=
  ∑ id ∈ (queued s.pending).toFinset, streamEffort s id + (queued s.pending).length

theorem backlog_taken {p : PendingStream} (hpop : s.pending.pop = some (p, q)) :
    backlog { s with pending := q } < backlog s := by
  have hqueued := queued_eq_cons_of_pop hpop
  have hsum : ∑ id ∈ (queued q).toFinset, streamEffort s id ≤
      ∑ id ∈ (queued s.pending).toFinset, streamEffort s id := by
    refine Finset.sum_le_sum_of_subset fun id hid => ?_
    rw [hqueued, mem_toFinset]
    exact mem_cons_of_mem _ (mem_toFinset.mp hid)
  have hlength : (queued s.pending).length = (queued q).length + 1 := by
    rw [hqueued, length_cons]
  change ∑ id ∈ (queued q).toFinset, streamEffort s id + (queued q).length < backlog s
  unfold backlog
  omega

theorem halfEffort_frame {maxLen first stop : Nat} {encodeLength fin : Bool} {buffer : SendBuffer}
    (h : Intact half) (hreset : half.isReset = false) (hroom : 17 ≤ maxLen)
    (hpoll : half.pending.pollTransmit maxLen = ((first, stop), encodeLength, buffer))
    (hfin : fin = true ↔ stop = buffer.offset ∧ ∃ finishAcked, half.state = .dataSent finishAcked)
    (hhalf' : half' = { half with pending := buffer, finPending := half.finPending && !fin }) :
    halfEffort half' + (if half'.isPending then 1 else 0) ≤ halfEffort half := by
  have hle : (if half'.finPending then 1 else 0) ≤ if half.finPending then 1 else 0 := by
    rw [hhalf']
    rcases half.finPending with _ | _ <;> simp
    split_ifs <;> omega
  have hbuffer : half'.pending = buffer := by rw [hhalf']
  unfold halfEffort
  rw [hbuffer]
  rcases effort_pollTransmit hroom hpoll with _ | ⟨_, hidle, hstop⟩
  · have hone : (if half'.isPending then 1 else 0) ≤ 1 := by split_ifs <;> omega
    omega
  · -- All data was sent, so that a FIN that is due goes with this frame.
    have hnone : half'.finPending = false := by
      rcases hdue : half.finPending with _ | _
      · simp [hhalf', hdue]
      · have hend : fin = true := by
          refine hfin.mpr ⟨hstop, ?_⟩
          rcases hstate : half.state with _ | finishAcked | _
          · exact absurd hstate (h.fin hdue)
          · exact ⟨finishAcked, rfl⟩
          · simp [Send.isReset, hstate] at hreset
        simp [hhalf', hend]
    have hidle' : half'.isPending = false := by
      unfold Send.isPending
      rw [hbuffer, hidle, hnone]
      rfl
    rw [hidle']
    simp only [Bool.false_eq_true, if_false, add_zero]
    omega

theorem backlog_frame {w : Writer} {p : PendingStream} {maxSize : Nat} {fair : Bool}
    (hpop : w.streams.pending.pop = some (p, q)) (hsend : w.streams.send p.id = some (some half))
    (hintact : Intact half) (hreset : half.isReset = false)
    (hroom : w.len + streamSizeBound < maxSize) :
    backlog (writeStreamFrame maxSize fair (taken w q) p.id half).2.streams <
      backlog w.streams := by
  obtain ⟨_, _, _, _, _, half', hpoll, hfin, hhalf', hstreams, -⟩ :=
    writeStreamFrame_spec maxSize fair (taken w q) p.id half
  have hid := varIntSize_le p.id.toNat
  have hroom' : 17 ≤ maxSize - (taken w q).len - 1 - varIntSize p.id.toNat := by
    change 17 ≤ maxSize - w.len - 1 - _
    unfold streamSizeBound at hroom
    omega
  have heffort := halfEffort_frame hintact hreset hroom' hpoll hfin hhalf'
  have hqueued := queued_eq_cons_of_pop hpop
  have hlength := length_queued_requeued (pop_eq_some hpop).1 fair p.id half'
  obtain ⟨s', hs'⟩ : ∃ s', s' = (writeStreamFrame maxSize fair (taken w q) p.id half).2.streams :=
    ⟨_, rfl⟩
  rw [← hs'] at hstreams ⊢
  have hpending : s'.pending = requeued fair q p.id half' := by
    rw [hstreams]
    rfl
  have hself : streamEffort s' p.id = halfEffort half' := by
    rw [hstreams]
    simp [streamEffort, StreamsState.setSend]
  have hother : ∀ j, j ≠ p.id → streamEffort s' j = streamEffort w.streams j := by
    intro j hj
    rw [hstreams]
    simp [streamEffort, StreamsState.setSend, hj, taken]
  have hmem : p.id ∈ (queued w.streams.pending).toFinset := by
    rw [hqueued, mem_toFinset]
    exact mem_cons_self
  have hsub : (queued s'.pending).toFinset ⊆ (queued w.streams.pending).toFinset := by
    intro j hj
    rw [mem_toFinset, hpending] at hj
    rw [hqueued, mem_toFinset]
    refine mem_cons.mpr ?_
    unfold requeued at hj
    split_ifs at hj
    · exact mem_queued_pushPending.mp hj
    · exact queued_reinsertPending hj
    · exact .inr hj
  have hbefore := Finset.add_sum_erase _ (streamEffort w.streams) hmem
  have hafter := Finset.add_sum_erase _ (streamEffort s') hmem
  have hrest : ∑ j ∈ (queued w.streams.pending).toFinset.erase p.id, streamEffort s' j =
      ∑ j ∈ (queued w.streams.pending).toFinset.erase p.id, streamEffort w.streams j :=
    Finset.sum_congr rfl fun j hj => hother j (Finset.ne_of_mem_erase hj)
  have hsum := Finset.sum_le_sum_of_subset (f := streamEffort s') hsub
  have hold : streamEffort w.streams p.id = halfEffort half := by
    simp [streamEffort, hsend]
  have hlength' : (queued w.streams.pending).length = (queued q).length + 1 := by
    rw [hqueued, length_cons]
  unfold backlog
  rw [hpending] at hsum ⊢
  omega

theorem backlog_writeStreamFrames {w : Writer} {maxSize : Nat} {fair : Bool}
    (h : Sound w.streams (frames ++ w.frames)) (fuel : Nat) :
    backlog (writeStreamFrames maxSize fair fuel w).2.streams ≤ backlog w.streams := by
  refine (writeStreamFrames_invariant (fun w' => Sound w'.streams (frames ++ w'.frames) ∧
    backlog w'.streams ≤ backlog w.streams) ?_ ?_ fuel ⟨h, le_rfl⟩).2
  · intro w' p queue hw' hpop _
    exact ⟨hw'.1.congr rfl, le_trans (le_of_lt (backlog_taken hpop)) hw'.2⟩
  · intro w' p queue half hw' hroom hpop hsend hreset
    have htaken : Sound (taken w' queue).streams (frames ++ (taken w' queue).frames) :=
      hw'.1.congr rfl
    refine ⟨sound_writeStreamFrame htaken hsend maxSize fair, le_trans (le_of_lt ?_) hw'.2⟩
    exact backlog_frame hpop hsend (hw'.1.halves _ _ hsend) hreset hroom

/-- A packet with room leaves less to send. -/
theorem backlog_writeStreamFrames_lt {w : Writer} {maxSize : Nat} {fair : Bool}
    (h : Sound w.streams (frames ++ w.frames)) (hlen : w.len + streamSizeBound < maxSize)
    (hqueued : queued w.streams.pending ≠ []) (fuel : Nat) :
    backlog (writeStreamFrames maxSize fair (fuel + 1) w).2.streams < backlog w.streams := by
  unfold writeStreamFrames
  rw [if_pos hlen]
  rcases hpop : w.streams.pending.pop with _ | ⟨p, queue⟩
  · exact absurd (pop_eq_none_iff.mp hpop) hqueued
  · dsimp only
    have htaken : Sound (taken w queue).streams (frames ++ (taken w queue).frames) :=
      h.congr rfl
    have hless := backlog_taken hpop
    split
    · rename_i half hsend
      split_ifs with hreset
      · exact lt_of_le_of_lt (backlog_writeStreamFrames htaken _) hless
      · have hframe := sound_writeStreamFrame htaken hsend maxSize fair
        refine lt_of_le_of_lt (backlog_writeStreamFrames hframe _) ?_
        exact backlog_frame hpop hsend (h.halves _ _ hsend) (Bool.eq_false_iff.mpr hreset) hlen
    · exact lt_of_le_of_lt (backlog_writeStreamFrames htaken _) hless

theorem sound_writeFrames (h : Sound s frames) (packet : Packet) :
    Sound (writeFrames s packet).streams (frames ++ (writeFrames s packet).frames) := by
  refine writeStreamFrames_invariant (fun w => Sound w.streams (frames ++ w.frames)) ?_ ?_ _ ?_
  · exact fun w q queue hw _ _ => hw.congr rfl
  · intro w q queue half hw _ _ hsend _
    have htaken : Sound (taken w queue).streams (frames ++ (taken w queue).frames) := hw.congr rfl
    exact sound_writeStreamFrame htaken hsend _ _
  · rw [append_nil]
    exact h

theorem flush_of_queued_eq_nil (h : queued s.pending = []) (packets : List Packet) :
    (flush s packets).2 = s := by
  induction packets with
  | nil => rfl
  | cons packet rest ih =>
    have hwrote : (writeFrames s packet).streams = s := by
      unfold writeFrames writeStreamFrames
      split_ifs
      · rw [pop_eq_none_iff.mpr h]
      · rfl
    change (flush (writeFrames s packet).streams rest).2 = s
    rw [hwrote]
    exact ih

/-- Packets with room, if there are enough of them, empty the queue. -/
theorem queued_flush (h : Sound s frames) {packets : List Packet}
    (hroom : ∀ packet ∈ packets, packet.len + streamSizeBound < packet.maxSize)
    (hlength : backlog s ≤ packets.length) : queued (flush s packets).2.pending = [] := by
  induction packets generalizing s frames with
  | nil =>
    unfold backlog at hlength
    rw [← length_eq_zero_iff]
    change (queued s.pending).length = 0
    simp only [length_nil] at hlength
    omega
  | cons packet _ ih =>
    by_cases hqueued : queued s.pending = []
    · rw [flush_of_queued_eq_nil hqueued]
      exact hqueued
    · have hless : backlog (writeFrames s packet).streams < backlog s :=
        backlog_writeStreamFrames_lt (by rwa [append_nil]) (hroom packet mem_cons_self) hqueued _
      rw [length_cons] at hlength
      refine ih (sound_writeFrames h packet) (fun p hp => ?_) (by omega)
      exact hroom p (mem_cons_of_mem _ hp)

end Effort

section Resent

variable {config : Config} {remembered : StreamsState.PeerLimits} {x : Party × List StreamsFrame}
  {frames : List StreamsFrame}

theorem sound_retransmitAllFor0rtt (h : Sound s sent) : Sound s.retransmitAllFor0rtt [] := by
  refine ⟨fun id half hid => ?_, fun frame hframe => absurd hframe not_mem_nil⟩
  rw [send_retransmitAllFor0rtt] at hid
  split_ifs at hid
  · rcases hsend : s.send id with _ | _ | half₀
    · simp [hsend, rewound] at hid
    · simp [hsend, rewound] at hid
    · have hintact := h.halves id half₀ hsend
      rw [hsend, rewound] at hid
      split_ifs at hid
      · cases hid
        exact hintact
      · cases hid
        exact ⟨hintact.whole.rewound, hintact.fin⟩
  · exact h.halves id half hid

theorem sound_flush (h : Sound s frames) (packets : List Packet) :
    Sound (flush s packets).2 (frames ++ (flush s packets).1) := by
  induction packets generalizing s frames with
  | nil =>
    rw [flush, append_nil]
    exact h
  | cons packet _ ih =>
    have hrest := ih (sound_writeFrames h packet)
    rw [append_assoc] at hrest
    exact hrest

/-- The buffers have all that goes into a frame, so that filling it comes to an end. -/
theorem stuck_writeFrames (h : Sound s frames) (packet : Packet) :
    (writeFrames s packet).stuck = false := by
  refine (writeStreamFrames_invariant (fun w => Sound w.streams (frames ++ w.frames) ∧
    w.stuck = false) ?_ ?_ _ ?_).2
  · exact fun w q queue hw _ _ => ⟨hw.1.congr rfl, hw.2⟩
  · intro w q queue half hw _ _ hsend _
    have htaken : Sound (taken w queue).streams (frames ++ (taken w queue).frames) :=
      hw.1.congr rfl
    refine ⟨sound_writeStreamFrame htaken hsend _ _, ?_⟩
    obtain ⟨_, _, _, _, _, _, hpoll, -, -, -, -, hstuck⟩ :=
      writeStreamFrame_spec packet.maxSize packet.fair (taken w queue) q.id half
    have hintact := hw.1.halves _ _ hsend
    obtain ⟨hle, hstop, -⟩ := hintact.whole.carries.pollTransmit hpoll
    have hwhole := hintact.whole.pollTransmit hpoll
    obtain ⟨hcontent, -, -⟩ := content_pollTransmit hpoll
    have hlength := hwhole.length_copyRange hle le_rfl (by
      rw [← hwhole.length, hcontent]
      exact hstop)
    rw [hstuck, hlength, bne_self_eq_false, Bool.or_false]
    exact hw.2
  · rw [append_nil]
    exact ⟨h, rfl⟩

/-- The client opened the stream, did not reset it, and wrote to it or has yet to finish it. -/
def Resendable (s : StreamsState) (id : StreamId) : Prop :=
  id.initiator = .client ∧ ∃ half, s.send id = some (some half) ∧ half.isReset = false ∧
    (half.offset ≠ 0 ∨ half.finPending = true)

theorem underway_retry (h : Inv x) (hid : id.initiator = .client)
    (hsend : x.1.streams.send id = some (some half))
    (hdue : half.offset ≠ 0 ∨ half.finPending = true) :
    Underway { half with pending := half.pending.retransmitAllFor0rtt } id
      x.1.streams.retransmitAllFor0rtt [] := by
  have hintact := h.sound.halves id half hsend
  have hown := h.schedule.seated.ours id (hid.trans h.side.symm) (by simp [hsend])
  refine ⟨{ half with pending := half.pending.retransmitAllFor0rtt }, ?_,
    ⟨hintact.whole.rewound, hintact.fin⟩, rfl, rfl, ?_, ?_, fun hfin => .inl hfin⟩
  · rw [send_retransmitAllFor0rtt, if_pos ⟨hid, hown.2⟩, hsend, rewound, if_neg]
    simp only [SendBuffer.isFullyAcked, hintact.whole.unackedLen, Bool.and_eq_true, beq_iff_eq,
      Bool.not_eq_true']
    rintro ⟨hzero, hnone⟩
    rcases hdue with hdata | hfin
    · exact hdata hzero
    · cases hnone.symm.trans hfin
  · exact fun n hn => absurd hn (Nat.not_lt_zero n)
  · intro _ hpos hend
    rw [hintact.whole.rewound.length, ← hend] at hpos
    exact absurd hpos (lt_irrefl _)

/-- After a retry, every byte and every FIN that was sent on a stream that can be sent again
is in the packets filled until nothing is queued; packets with room bring that about, and
filling each of them comes to an end. -/
theorem early_data_resent (hx : (resuming config remembered).ReachableVia Unanswered x) :
    (∀ frame, .stream frame ∈ x.2 → Resendable x.1.streams frame.id → ∀ packets,
      queued (flush x.1.streams.retransmitAllFor0rtt packets).2.pending = [] →
        (∀ i byte, frame.data[i]? = some byte →
          Appears (flush x.1.streams.retransmitAllFor0rtt packets).1 frame.id (frame.offset + i)
            byte) ∧
        (frame.fin = true →
          FinAppears (flush x.1.streams.retransmitAllFor0rtt packets).1 frame.id)) ∧
    (∃ count, ∀ packets : List Packet,
      (∀ packet ∈ packets, packet.len + streamSizeBound < packet.maxSize) → count ≤ packets.length →
          queued (flush x.1.streams.retransmitAllFor0rtt packets).2.pending = []) ∧
    ∀ packets packet,
      (writeFrames (flush x.1.streams.retransmitAllFor0rtt packets).2 packet).stuck = false := by
  have hinv : Inv x := hx.invariant (fun _ => inv_initial) fun _ _ _ => inv_step
  have hsound := sound_retransmitAllFor0rtt hinv.sound
  refine ⟨fun frame hframe hresend packets hempty => ?_, ⟨_, fun packets hroom hcount =>
    queued_flush hsound hroom hcount⟩, fun packets packet =>
      stuck_writeFrames (sound_flush hsound packets) packet⟩
  obtain ⟨hid, half, hsend, hreset, hdue⟩ := hresend
  have hstart :
      ({ half with pending := half.pending.retransmitAllFor0rtt } : Send).isReset = false :=
    hreset
  have hunderway := underway_flush hstart (underway_retry hinv hid hsend hdue) packets
  have hscheduled := scheduled_flush (scheduled_steps hinv.schedule.scheduled
    (steps_retransmitAllFor0rtt trivial (fun _ => trivial) _)) packets
  obtain ⟨hbytes, hfin⟩ := hunderway.done hstart hscheduled hempty
  obtain ⟨_, hsend₀, hrepeats⟩ := hinv.sound.frames frame hframe
  cases hsend.symm.trans hsend₀
  refine ⟨fun i byte hi => hbytes _ _ (hrepeats.bytes i byte hi), fun hend => ?_⟩
  refine hfin (hrepeats.fin hend) (hdue.imp_left fun hdata hnil => hdata ?_)
  exact (hinv.sound.halves _ _ hsend).whole.length.symm.trans (length_eq_zero_iff.mpr hnil)

def sendsOnly (_ : Party × List StreamsFrame) : Operation → Bool
  | .call _ | .transmit _ => true
  | _ => false

theorem unanswered_of_sendsOnly {op : Operation} (h : sendsOnly x op = true) : Unanswered x op := by
  cases op <;> first | exact trivial | cases h

def request : StreamId :=
  ⟨.client, .bi, 0⟩

theorem initial_example : (resuming exampleConfig (limits 100)).initial
    (client exampleConfig (limits 100), []) :=
  ⟨rfl, rfl⟩

/-- A request of ten bytes is sent as early data, and again after the retry. -/
theorem request_resent : ∃ x, (resuming exampleConfig (limits 100)).ReachableVia Unanswered x ∧
      .stream ⟨request, 0, true, List.replicate 10 7⟩ ∈ x.2 ∧ Resendable x.1.streams request ∧
      queued (flush x.1.streams.retransmitAllFor0rtt [⟨0, 50, false⟩]).2.pending = [] ∧
      FinAppears (flush x.1.streams.retransmitAllFor0rtt [⟨0, 50, false⟩]).1 request := by
  have hreach := System.ReachableVia.of_runChecked (fun _ _ => unanswered_of_sendsOnly)
    (.initial initial_example) (rfl : (resuming exampleConfig (limits 100)).runChecked sendsOnly _
      [.call (.openStream .bi), .call (.write request (replicate 10 7)),
        .call (.finish request), .transmit ⟨0, 50, false, []⟩] = some _)
  have happears := (early_data_resent hreach).1 ⟨request, 0, true, replicate 10 7⟩ (by decide)
    ⟨rfl, _, rfl, rfl, .inl (by decide)⟩ [⟨0, 50, false⟩] (by decide)
  exact ⟨_, hreach, by decide, ⟨rfl, _, rfl, rfl, .inl (by decide)⟩, by decide, happears.2 rfl⟩

/-- A stream is finished without data and its FIN sent; after the retry nothing is queued. -/
theorem emptyRequest_not_resent : ∃ x, (resuming exampleConfig (limits 100)).Reachable x ∧
      .stream ⟨request, 0, true, []⟩ ∈ x.2 ∧
      queued x.1.streams.retransmitAllFor0rtt.pending = [] ∧
      ¬ FinAppears (flush x.1.streams.retransmitAllFor0rtt []).1 request := by
  have hinitial : (resuming exampleConfig (limits 100)).Reachable _ := .initial initial_example
  refine hinitial.exists_of_run
    [.call (.openStream .bi), .call (.finish request), .transmit ⟨0, 50, false, []⟩]
    ⟨_, rfl, by decide, by decide, ?_⟩
  rintro ⟨frame, hmem, -⟩
  exact absurd hmem not_mem_nil

end Resent

end Quac.EarlyResend
