import Quac.PartySteps
import Quac.RemoteBooks

/-!
The counters for streams over whole runs.  An operation changes halves in place, which
leaves the books level, or takes one half out and enters it as freed; no decrement and no
assertion fails on the way, as long as only streams that were accepted are finished or
reset.
-/

namespace Quac.RemoteCount

open EarlyData Identifiers Lib.Transition PartySteps Reassembly RecvHalf RemoteBooks SendHalf
open Function
open SendSteps StreamAccess StreamAccounts
open StreamParty hiding State step system
open StreamSession StreamTransmit Streams StreamsState TransmitShape Option

variable {s s' : StreamsState} {id : StreamId}

theorem recv_ne_none {recv : Recv} (h : s.getRecv id = some recv) : s.recv id ≠ none := by
  intro hnone
  simp [getRecv, hnone] at h

theorem level_setRecv (h : s.recv id ≠ none) (recv : Recv) : Level s (s.setRecv id recv) := by
  have hsame := Level.refl s
  refine { hsame with recv := fun j => ?_ }
  rcases eq_or_ne j id with rfl | hne
  · simp [setRecv, h]
  · simp only [setRecv, update_of_ne hne]

theorem level_setSend {half : Send} (hget : s.getSend id = some half) (half' : Send)
    (hstate : id.initiator ≠ s.side → s.nextReportedRemote id.dir ≤ id.index →
      half'.state = half.state) : Level s (s.setSend id half') := by
  have hsame := Level.refl s
  refine { hsame with send := fun j => ?_, ready := fun j half'' hside hle hj => ?_ }
  · rcases eq_or_ne j id with rfl | hne
    · simp [setSend, send_ne_none hget]
    · simp only [setSend, update_of_ne hne]
  · rcases eq_or_ne j id with rfl | hne
    · simp only [setSend, update_self, some.injEq] at hj
      subst hj
      have hstate := hstate hside hle
      obtain ⟨slot, hslot, heq⟩ := map_eq_some_iff.mp hget
      rcases slot with _ | half₀
      · refine .inl (hstate.trans ?_)
        rw [← heq]
        rfl
      · exact .inr ⟨half₀, hslot, by rw [hstate, ← heq]; rfl⟩
    · simp only [setSend, update_of_ne hne] at hj
      exact .inr ⟨half'', hj, rfl⟩

theorem level_onStreamFrame (s : StreamsState) (notify : Bool) (id : StreamId) :
    Level s (s.onStreamFrame notify id) := by
  have hsame := Level.refl s
  unfold onStreamFrame
  split_ifs
  · exact { hsame with }
  · exact hsame
  · exact { hsame with }
  · exact { hsame with }
  · exact hsame

theorem level_addReadCredits (s : StreamsState) (credits : Nat) :
    Level s (s.addReadCredits credits).2 := by
  have hsame := Level.refl s
  unfold addReadCredits
  dsimp only
  split_ifs <;> exact { hsame with }

theorem level_dataRecvd (s : StreamsState) (dataRecvd : Nat) : Level s { s with dataRecvd } := by
  have hsame := Level.refl s
  exact { hsame with }

def recvFreedFails (s : StreamsState) (id : StreamId) (recv : StreamRecv) : Bool :=
  freedFails { s with freeRecv := recv.release s.streamReceiveWindow :: s.freeRecv } id .recv

theorem removed_freeRecv {half : StreamHalf} (h : Removed s id half) (freeRecv : List StreamRecv) :
    Removed { s with freeRecv } id half :=
  ⟨{ h.placed with seated := ⟨h.placed.seated.ours, h.placed.seated.theirs⟩ }, h.count, h.streams⟩

theorem books_recvFreed (h : Books s) (hid : s.recv id ≠ none) (recv : StreamRecv) :
    recvFreedFails (s.removeRecv id) id recv = false ∧
      Books ((s.removeRecv id).streamRecvFreed id recv) := by
  have hremoved := removed_freeRecv (h.removeRecv hid)
    (recv.release (s.removeRecv id).streamReceiveWindow :: (s.removeRecv id).freeRecv)
  exact ⟨hremoved.freedFails, hremoved.books⟩

theorem books_sendFreed (h : Books s) (hid : s.send id ≠ none)
    (haccepted : id.initiator ≠ s.side → id.index < s.nextReportedRemote id.dir) :
    freedFails (s.removeSend id) id .send = false ∧
      Books ((s.removeSend id).streamFreed id .send) :=
  ⟨(h.removeSend hid haccepted).freedFails, (h.removeSend hid haccepted).books⟩

def receivedFails (s : StreamsState) (frame : StreamFrame) (payloadLen : Nat) : Bool :=
  match s.validateReceiveId frame.id, s.getRecv frame.id with
  | .ok _, some rs =>
    let s := s.setRecv frame.id rs
    if !rs.isReceiving then false
    else
      match rs.ingest frame payloadLen s.dataRecvd s.localMaxData with
      | .error _ => false
      | .ok (newBytes, closed, rs) =>
        let s :=
          { s.setRecv frame.id rs with dataRecvd := (s.dataRecvd + newBytes).min (2 ^ 64 - 1) }
        rs.stopped && closed && recvFreedFails (s.removeRecv frame.id) frame.id (.opened rs)
  | _, _ => false

theorem books_getRecv (h : Books s) {rs : Recv} (hget : s.getRecv id = some rs) :
    Books (s.setRecv id rs) ∧ (s.setRecv id rs).recv id ≠ none :=
  ⟨h.level (level_setRecv (recv_ne_none hget) rs), by simp [setRecv]⟩

theorem books_received (h : Books s) (frame : StreamFrame) (payloadLen : Nat) :
    receivedFails s frame payloadLen = false ∧
      ∀ r, s.received frame payloadLen = .ok r → Books r.2 := by
  unfold receivedFails received
  simp only [bind, Except.bind, pure, Except.pure]
  rcases s.validateReceiveId frame.id with e | _
  · exact ⟨rfl, fun r hr => by cases hr⟩
  rcases hget : s.getRecv frame.id with _ | rs
  · exact ⟨rfl, fun r hr => by cases hr; exact h⟩
  dsimp only
  obtain ⟨hset, hid⟩ := books_getRecv h hget
  generalize s.setRecv frame.id rs = t at *
  by_cases hreceiving : (!rs.isReceiving) = true
  · rw [if_pos hreceiving, if_pos hreceiving]
    exact ⟨rfl, fun r hr => by cases hr; exact hset⟩
  rw [if_neg hreceiving, if_neg hreceiving]
  rcases rs.ingest frame payloadLen t.dataRecvd t.localMaxData with e | ⟨newBytes, _, rs'⟩
  · exact ⟨rfl, fun r hr => by cases hr⟩
  dsimp only
  obtain ⟨u, hu⟩ : ∃ u : StreamsState, u = { t.setRecv frame.id rs' with
      dataRecvd := (t.dataRecvd + newBytes).min (2 ^ 64 - 1) } := ⟨_, rfl⟩
  have hingested : Books u := by
    rw [hu]
    exact hset.level ((level_setRecv hid rs').trans (level_dataRecvd _ _))
  have hid' : u.recv frame.id ≠ none := by simp [hu, setRecv]
  rw [← hu]
  have hfreed := books_recvFreed hingested hid' (.opened rs')
  rw [hfreed.1, Bool.and_false]
  refine ⟨rfl, fun r hr => ?_⟩
  split_ifs at hr <;> cases hr
  · exact hingested.level (level_onStreamFrame _ _ _)
  · exact hfreed.2.level (level_addReadCredits _ _)
  · exact hingested.level (level_addReadCredits _ _)

def receivedResetFails (s : StreamsState) (id : StreamId) (errorCode finalOffset : Nat) : Bool :=
  match s.validateReceiveId id, s.getRecv id with
  | .ok _, some rs =>
    let s := s.setRecv id rs
    match rs.reset errorCode finalOffset s.dataRecvd s.localMaxData with
    | .ok (some rs) =>
      let s := s.setRecv id rs
      rs.stopped && recvFreedFails (s.removeRecv id) id (.opened rs)
    | _ => false
  | _, _ => false

theorem books_receivedReset (h : Books s) (id : StreamId) (errorCode finalOffset : Nat) :
    receivedResetFails s id errorCode finalOffset = false ∧
      ∀ r, s.receivedReset id errorCode finalOffset = .ok r → Books r.2 := by
  unfold receivedResetFails receivedReset
  simp only [bind, Except.bind, pure, Except.pure]
  rcases s.validateReceiveId id with e | _
  · exact ⟨rfl, fun r hr => by cases hr⟩
  rcases hget : s.getRecv id with _ | rs
  · exact ⟨rfl, fun r hr => by cases hr; exact h⟩
  dsimp only
  obtain ⟨hset, hid⟩ := books_getRecv h hget
  generalize s.setRecv id rs = t at *
  rcases rs.reset errorCode finalOffset t.dataRecvd t.localMaxData with e | _ | rs'
  · exact ⟨rfl, fun r hr => by cases hr⟩
  · exact ⟨rfl, fun r hr => by cases hr; exact hset⟩
  dsimp only
  have hreset : Books (t.setRecv id rs') := hset.level (level_setRecv hid rs')
  have hid' : (t.setRecv id rs').recv id ≠ none := by simp [setRecv]
  have hfreed := books_recvFreed hreset hid' (.opened rs')
  rw [hfreed.1, Bool.and_false]
  refine ⟨rfl, fun r hr => ?_⟩
  have hbooks : Books (if rs'.stopped = true then
      ((t.setRecv id rs').removeRecv id).streamRecvFreed id (.opened rs')
      else t.setRecv id rs') := by
    split_ifs
    · exact hfreed.2
    · exact hreset
  generalize (if rs'.stopped = true then _ else t.setRecv id rs') = u at hbooks hr
  have hannounced := hbooks.level (level_onStreamFrame u (!rs'.stopped) id)
  split_ifs at hr <;> cases hr
  · exact hannounced.level ((level_dataRecvd _ _).trans (level_addReadCredits _ _))
  · exact hannounced

def stopFails (s : StreamsState) (id : StreamId) : Bool :=
  match s.getRecv id with
  | none => false
  | some recv =>
    match recv.stopReceiving with
    | none => false
    | some (_, recv) =>
      let s := s.setRecv id recv
      !recv.finalOffsetUnknown && recvFreedFails (s.removeRecv id) id (.opened recv)

theorem books_stopStream (h : Books s) (pending : Retransmits) (id : StreamId) (errorCode : Nat) :
    stopFails s id = false ∧ Books (stopStream s pending id errorCode).2.1 := by
  unfold stopFails stopStream
  rcases hget : s.getRecv id with _ | recv
  · exact ⟨rfl, h⟩
  dsimp only
  have hid := recv_ne_none hget
  rcases recv.stopReceiving with _ | ⟨⟨_, _⟩, recv'⟩
  · exact ⟨rfl, h.level (level_setRecv hid recv)⟩
  dsimp only
  have hset := h.level (level_setRecv hid recv')
  have hid' : (s.setRecv id recv').recv id ≠ none := by simp [setRecv]
  have hfreed := books_recvFreed hset hid' (.opened recv')
  rw [hfreed.1, Bool.and_false]
  refine ⟨rfl, Books.level ?_ (level_addReadCredits _ _)⟩
  split_ifs
  · exact hset
  · exact hfreed.2

def resetCodeFails (s : StreamsState) (id : StreamId) : Bool :=
  match s.recv id with
  | some (some (.opened recv)) =>
    if recv.stopped then false
    else
      match recv.state with
      | .recv _ => false
      | .resetRecvd _ _ => recvFreedFails (s.removeRecv id) id (.opened recv)
  | _ => false

theorem books_receivedResetCode (h : Books s) (pending : Retransmits) (id : StreamId) :
    resetCodeFails s id = false ∧ Books (receivedResetCode s pending id).2.1 := by
  unfold resetCodeFails receivedResetCode
  rcases hrecv : s.recv id with _ | _ | recv | recv
  iterate 3 exact ⟨rfl, h⟩
  · dsimp only
    split_ifs
    · exact ⟨rfl, h⟩
    · rcases recv.state with size | ⟨_, _⟩
      · exact ⟨rfl, h⟩
      · exact books_recvFreed h (by simp [hrecv]) (.opened recv)

def nextFails (c : Chunks) (maxLength : Nat) : Bool :=
  match c.state with
  | .reset _ | .finished => false
  | .readable recv =>
    match recv.assembler.read maxLength c.ordered with
    | (some _, _) => false
    | (none, assembler) =>
      let recv := { recv with assembler }
      match recv.state with
      | .resetRecvd _ _ => recvFreedFails c.streams c.id (.opened recv)
      | .recv size =>
        decide (size = some recv.stop ∧ assembler.bytesRead = recv.stop) &&
          recvFreedFails c.streams c.id (.opened recv)

def nextEachFails (c : Chunks) : List Nat → Bool
  | [] => false
  | maxLength :: rest => nextFails c maxLength || nextEachFails (c.next maxLength).2 rest

/-- A read of the streams `s`: the half is out as long as there may be more to read. -/
def Reading (s : StreamsState) (id : StreamId) (c : Chunks) : Prop :=
  c.id = id ∧ match c.state with
    | .readable _ => c.streams = s.removeRecv id
    | .reset _ | .finished => Books c.streams

theorem reading_next (h : Books s) (hid : s.recv id ≠ none) {c : Chunks} (hc : Reading s id c)
    (maxLength : Nat) : nextFails c maxLength = false ∧ Reading s id (c.next maxLength).2 := by
  obtain ⟨rfl, hstreams⟩ := hc
  unfold nextFails Chunks.next
  rcases hstate : c.state with recv | errorCode | _
  · rw [hstate] at hstreams
    dsimp only at hstreams ⊢
    have hfreed : ∀ recv, recvFreedFails c.streams c.id recv = false ∧
        Books (c.streams.streamRecvFreed c.id recv) := by
      intro recv
      rw [hstreams]
      exact books_recvFreed h hid recv
    rcases recv.assembler.read maxLength c.ordered with ⟨_ | _, _⟩
    · rcases recv.state with size | ⟨_, _⟩
      · dsimp only
        rw [(hfreed _).1, Bool.and_false]
        refine ⟨rfl, ?_⟩
        split_ifs
        · exact ⟨rfl, (hfreed _).2⟩
        · exact ⟨rfl, hstreams⟩
      · exact ⟨(hfreed _).1, rfl, (hfreed _).2⟩
    · exact ⟨rfl, rfl, hstreams⟩
  all_goals
    refine ⟨rfl, rfl, ?_⟩
    exact hstreams

theorem reading_nextEach (h : Books s) (hid : s.recv id ≠ none) {c : Chunks}
    (hc : Reading s id c) (maxLengths : List Nat) :
    nextEachFails c maxLengths = false ∧ Reading s id (c.nextEach maxLengths).2 := by
  induction maxLengths generalizing c with
  | nil => exact ⟨rfl, hc⟩
  | cons maxLength _ ih =>
    obtain ⟨hfails, hnext⟩ := reading_next h hid hc maxLength
    obtain ⟨hrest, hdone⟩ := ih hnext
    refine ⟨?_, hdone⟩
    rw [nextEachFails, hfails, hrest]
    rfl

theorem books_finalize (h : Books s) (hid : s.recv id ≠ none) {c : Chunks} (hc : Reading s id c)
    (pending : Retransmits) : Books (c.finalize pending).1 := by
  obtain ⟨rfl, hstreams⟩ := hc
  unfold Chunks.finalize
  rcases hstate : c.state with recv | _ | _
  · rw [hstate] at hstreams
    dsimp only at hstreams ⊢
    have hback : (s.removeRecv c.id).setRecv c.id recv = s.setRecv c.id recv := by
      simp [removeRecv, setRecv]
    rw [hstreams, hback]
    exact h.level ((level_setRecv hid recv).trans (level_addReadCredits _ _))
  all_goals
    rw [hstate] at hstreams
    exact Books.level hstreams (level_addReadCredits _ _)

def readFails (s : StreamsState) (id : StreamId) (maxLengths : List Nat) : Bool :=
  match Chunks.new id true s with
  | .error _ => false
  | .ok chunks => nextEachFails chunks maxLengths

theorem books_readStream (h : Books s) (pending : Retransmits) (id : StreamId)
    (maxLengths : List Nat)
    (hordered : ∀ recv, s.getRecv id = some recv → recv.assembler.state = .ordered) :
    readFails s id maxLengths = false ∧ Books (readStream s pending id maxLengths).2.1 := by
  unfold readFails readStream
  rcases hnew : Chunks.new id true s with ⟨e, t⟩ | c
  · refine ⟨rfl, ?_⟩
    unfold Chunks.new at hnew
    rcases hget : s.getRecv id with _ | recv
    · simp only [hget] at hnew
      cases hnew
      exact h
    · simp only [hget] at hnew
      split_ifs at hnew
      · cases hnew
        exact h.level (level_setRecv (recv_ne_none hget) recv)
      · simp [Assembler.ensureOrdering, Assembler.isOrdered, hordered recv hget] at hnew
  · unfold Chunks.new at hnew
    rcases hget : s.getRecv id with _ | recv
    · simp [hget] at hnew
    simp only [hget] at hnew
    split_ifs at hnew
    split at hnew
    · cases hnew
    rename_i assembler _
    cases hnew
    have hid := recv_ne_none hget
    have hstart : Reading s id
        ⟨id, true, s.removeRecv id, .readable { recv with assembler }, 0⟩ := ⟨rfl, rfl⟩
    obtain ⟨hfails, hdone⟩ := reading_nextEach h hid hstart maxLengths
    exact ⟨hfails, books_finalize h hid hdone pending⟩

def Accepted (s : StreamsState) (id : StreamId) : Prop :=
  id.initiator ≠ s.side → id.index < s.nextReportedRemote id.dir

theorem level_sendStep {scope : Scope} (hended : ∀ id, scope.ended id → Accepted s id)
    (h : SendStep scope s s') : Level s s' := by
  have hsame := Level.refl s
  have hset : ∀ {id : StreamId} {half half' : Send} {queues : Bool}, s.getSend id = some half →
      HalfStep scope id half queues half' → Level s (s.setSend id half') := by
    intro id half half' queues hget hhalf
    refine level_setSend hget half' fun hside hle => ?_
    rcases hhalf.state with hstate | hid
    · exact hstate
    · exact absurd (hended _ hid hside) (not_lt.mpr hle)
  cases h with
  | calm hget hhalf => exact hset hget hhalf
  | filled hget hhalf =>
    have hset := hset hget hhalf
    exact { hset with }
  | framed _ _ hsend hstate =>
    have hset := level_setSend (getSend_of_send hsend) _ fun _ _ => hstate
    exact { hset with }
  | announced id => exact level_onStreamFrame s false id
  | _ => exact { hsame with }

theorem level_of_steps (h : Steps { Scope.any with ended := Accepted s } s s') : Level s s' := by
  induction h with
  | refl => exact .refl s
  | tail _ hstep ih =>
    refine ih.trans (level_sendStep (fun id hid hside => ?_) hstep)
    rw [ih.side] at hside
    rw [ih.reported]
    exact hid hside

theorem level_setParams (s : StreamsState) (params : StreamsState.PeerLimits) :
    Level s (s.setParams params) := by
  have hsame := Level.refl s
  refine { hsame with send := fun id => ?_, ready := fun id half _ _ hid => .inr ?_ }
  · rcases setParams_send s params id with heq | ⟨-, heq⟩ <;> rw [heq]
    exact map_eq_none_iff
  · rcases setParams_send s params id with heq | ⟨-, heq⟩ <;> rw [heq] at hid
    · exact ⟨half, hid, rfl⟩
    · obtain ⟨_, hslot, hmap⟩ := map_eq_some_iff.mp hid
      obtain ⟨half', rfl, rfl⟩ := map_eq_some_iff.mp hmap
      exact ⟨half', hslot, rfl⟩

section Transmit

variable {w : Writer}

theorem level_controlStep {w' : Writer} (h : ControlStep w w') : Level w.streams w'.streams := by
  have hsame := Level.refl w.streams
  cases h with
  | maxStreamData _ _ _ hrecv => exact level_setRecv (by simp [hrecv]) _
  | maxStreams _ dir =>
    refine { hsame with sent := fun d => ?_ }
    rcases eq_or_ne d dir with rfl | hne
    · exact .inr (by simp)
    · exact .inl (by simp [hne])
  | _ => exact { hsame with }

theorem level_transmit {p p' : Party} {space : PacketSpace} {frames : List StreamsFrame}
    (h : p.transmit space = some (frames, p')) : Level p.streams p'.streams := by
  have hrule : ControlRule fun w => Level p.streams w.streams :=
    ⟨fun h hstep => h.trans (level_controlStep hstep)⟩
  obtain ⟨w, _, _, hcontrol, rfl, -, -, rfl⟩ := hrule.transmit_eq_some (.refl _) h
  exact hcontrol.trans (level_of_steps (steps_writeStreamFrames trivial _ _ _ _))

end Transmit

def ackFails (s : StreamsState) (frame : StreamMeta) : Bool :=
  match s.send frame.id with
  | some (some half) =>
    if half.isReset then false
    else
      let s := { s with
        unackedData := StreamsState.wrappingSub s.unackedData (frame.stop - frame.start) }
      (half.ack frame).1 && freedFails (s.removeSend frame.id) frame.id .send
  | _ => false

theorem accepted_of_not_ready (h : Books s) {half : Send} (hid : s.send id = some (some half))
    (hstate : half.state ≠ .ready) : Accepted s id :=
  fun hside => lt_of_not_ge fun hle => hstate (h.ready id half hside hle hid)

theorem books_receivedAckOf (h : Books s) (frame : StreamMeta) :
    ackFails s frame = false ∧ Books (s.receivedAckOf frame) := by
  unfold ackFails receivedAckOf
  rcases hsend : s.send frame.id with _ | _ | half
  · exact ⟨rfl, h⟩
  · exact ⟨rfl, h⟩
  dsimp only
  by_cases hreset : half.isReset = true
  · rw [if_pos hreset, if_pos hreset]
    exact ⟨rfl, h⟩
  rw [if_neg hreset, if_neg hreset]
  obtain ⟨t, ht⟩ : ∃ t : StreamsState, t = { s with
      unackedData := wrappingSub s.unackedData (frame.stop - frame.start) } := ⟨_, rfl⟩
  have hlevel : Level s t := by
    have hsame := Level.refl s
    rw [ht]
    exact { hsame with }
  have hbooks := h.level hlevel
  have hsend' : t.send frame.id = some (some half) := by
    rw [ht]
    exact hsend
  rw [← ht]
  rcases hfinished : (half.ack frame).1 with _ | _
  · have hget : t.getSend frame.id = some half := by simp [getSend, hsend']
    refine ⟨rfl, hbooks.level (level_setSend hget _ fun hside hle => ?_)⟩
    have hready := hbooks.ready frame.id half hside hle hsend'
    unfold Send.ack
    rw [hready]
  · -- The last acknowledgement of a stream that was finished.
    have hstate : half.state ≠ .ready := by
      intro hready
      unfold Send.ack at hfinished
      rw [hready] at hfinished
      cases hfinished
    have hfreed := books_sendFreed hbooks (by simp [hsend'])
      (accepted_of_not_ready hbooks hsend' hstate)
    refine ⟨hfreed.1, ?_⟩
    have hsame := Level.refl ((t.removeSend frame.id).streamFreed frame.id .send)
    exact hfreed.2.level { hsame with }

def resetAckFails (s : StreamsState) (id : StreamId) : Bool :=
  match s.send id with
  | some (some half) => half.isReset && freedFails (s.removeSend id) id .send
  | _ => false

section Runs

variable {p p' : Party} {op : Operation}

/-- A decrement or an assertion fails in the course of the operation. -/
def fails (p : Party) : Operation → Bool
  | .call (.openStream dir) =>
    decide (p.streams.next dir < p.streams.max dir) &&
      insertFails { p.streams with
        next := Function.update p.streams.next dir (p.streams.next dir + 1) } false
        ⟨p.streams.side, dir, p.streams.next dir⟩
  | .call (.read id maxLengths) => readFails p.streams id maxLengths
  | .call (.stop id _) => stopFails p.streams id
  | .call (.setMaxConcurrentStreams dir count) =>
    ensureFails { p.streams with
      flowControlAdjusted := true
      maxConcurrentRemoteCount :=
        Function.update p.streams.maxConcurrentRemoteCount dir count } dir
  | .receivedReset id => resetCodeFails p.streams id
  | .receive payloadLen (.stream frame) => receivedFails p.streams frame payloadLen
  | .receive _ (.resetStream id errorCode finalOffset) =>
    receivedResetFails p.streams id errorCode finalOffset
  | .acked (.stream frame) => ackFails p.streams (streamMeta frame)
  | .acked (.resetStream id _ _) => resetAckFails p.streams id
  | _ => false

/-- Reads are in order, only streams of ours and accepted ones are finished or reset, and
early data is not rejected after a stream of the peer was accepted. -/
def Orderly (p : Party) : Operation → Prop
  | .call (.finish id) | .call (.reset id _) => Accepted p.streams id
  | .readUnordered _ _ => False
  | .zeroRttRejected => p.streams.nextReportedRemote .bi = 0
  | _ => True

structure Inv (p : Party) : Prop where
  tidy : Tidy p
  books : Books p.streams

theorem begins_new (side : Side) (uni bi sendWindow receiveWindow streamWindow : Nat) :
    Begins (accounts (Party.new side uni bi sendWindow receiveWindow streamWindow
      ⟨0, 0, 0, 0, 0, 0⟩).streams) := by
  rw [(accounts_new side _ _ _ _ _ _).2]
  exact begins_initial _ _ _ _ _

theorem tidy_new (side : Side) (uni bi sendWindow receiveWindow streamWindow : Nat) :
    Tidy ⟨.new side uni bi sendWindow receiveWindow streamWindow, .empty⟩ := by
  have hfresh :=
    (accounts_new side uni bi sendWindow receiveWindow streamWindow ⟨0, 0, 0, 0, 0, 0⟩).1
  exact ⟨hfresh, (begins_new side _ _ _ _ _).ordered⟩

/-- The peer may open as many streams as there are halves for it. -/
theorem books_new (side : Side) (uni bi sendWindow receiveWindow streamWindow : Nat) :
    Books (.new side uni bi sendWindow receiveWindow streamWindow) := by
  have hsend := send_new side uni bi sendWindow receiveWindow streamWindow
  have hget := getRecv_new side uni bi sendWindow receiveWindow streamWindow
  have hseated := seated_new side uni bi sendWindow receiveWindow streamWindow
  obtain ⟨send, recv, freeRecv, hrest⟩ := new_rest side uni bi sendWindow receiveWindow
    streamWindow
  rw [hrest] at hsend hget hseated ⊢
  have hrecv : ∀ id, recv id ≠ none ↔ id.initiator = side.peer ∧
      id.index < remoteLimits uni bi id.dir := by
    intro id
    have hget := hget id
    split_ifs at hget with hin
    · exact iff_of_true (recv_ne_none hget) hin
    · refine iff_of_false (fun hne => ?_) hin
      simp only [getRecv, map_eq_none_iff] at hget
      exact hne hget
  refine ⟨⟨hseated, ?_, ?_, ?_, fun _ => le_rfl, ?_, ?_⟩, ?_, ?_⟩
  · intro id _ hid
    rw [hsend] at hid
    split_ifs at hid with hin
    · exact hin.2.1
    · exact absurd rfl hid
  · intro id hours hid
    exact absurd (hours.symm.trans ((hrecv id).mp hid).1) (Accounts.peer_ne side).symm
  · exact fun id _ hid => ((hrecv id).mp hid).2
  · intro i _ hlt
    rw [hsend, if_pos ⟨rfl, rfl, hlt⟩]
    exact some_ne_none _
  · intro id half _ _ hid
    rw [hsend] at hid
    split_ifs at hid
    cases hid
  · intro dir
    refine (Nat.count_of_forall fun i hi => .inr ?_).symm
    rw [isSome_iff_ne_none, hrecv]
    exact ⟨rfl, hi⟩
  · rfl

theorem tidy_receivedResetCode (h : Tidy p) (id : StreamId) :
    Tidy ⟨(receivedResetCode p.streams p.pending id).2.1,
      (receivedResetCode p.streams p.pending id).2.2⟩ := by
  unfold receivedResetCode
  split
  · exact h
  · split_ifs
    · exact h
    · split
      · exact h
      · rename_i recv _ _ _ _ _ _
        obtain ⟨hfresh, _, _, -, heq⟩ :=
          accounts_streamRecvFreed (s := p.streams.removeRecv id) h.fresh id recv
        refine ⟨hfresh, ?_⟩
        rw [heq, accounts_removeRecv]
        exact (h.ordered.removeRecv id).allot _ _
  · exact h

theorem tidy_setPriority (h : Tidy p) (id : StreamId) (priority : Int) :
    Tidy { p with streams := (setPriority p.streams id priority).2 } := by
  unfold setPriority
  split
  · exact h
  · exact ⟨h.fresh, h.ordered⟩

theorem tidy_retransmitAllFor0rtt (h : Tidy p) :
    Tidy { p with streams := p.streams.retransmitAllFor0rtt } := by
  obtain ⟨_, _, heq⟩ := p.streams.retransmitAllFor0rtt_rest
  rw [heq]
  exact ⟨h.fresh, h.ordered⟩

theorem tidy_rejected (h : Tidy p) : Tidy ⟨rejected p.streams, .empty⟩ := by
  refine ⟨h.fresh, fun id recv hid => h.ordered id recv ?_⟩
  change (rejected p.streams).getRecv id = some recv at hid
  change p.streams.getRecv id = some recv
  unfold getRecv at hid ⊢
  simp only [rejected] at hid
  split_ifs at hid
  · cases hid
  · exact hid

theorem books_call (h : Inv p) {c : Call} (hc : Orderly p (.call c)) :
    fails p (.call c) = false ∧ Books (p.call c).2.streams := by
  have hs := h.books
  cases c with
  | openStream dir =>
    exact ⟨(congrArg (_ && ·) (hs.toPlaced.insertFails dir)).trans (Bool.and_false _),
      hs.openStream dir⟩
  | acceptStream dir => exact ⟨rfl, hs.accept dir⟩
  | write _ data =>
    exact ⟨rfl, hs.level (level_of_steps (steps_writeStream trivial trivial _ false data))⟩
  | finish => exact ⟨rfl, hs.level (level_of_steps (steps_finishStream hc trivial))⟩
  | reset _ errorCode => exact ⟨rfl, hs.level (level_of_steps (steps_resetStream hc _ errorCode))⟩
  | read id maxLengths => exact books_readStream hs _ id maxLengths (h.tidy.ordered id)
  | stop id errorCode => exact books_stopStream hs _ id errorCode
  | poll =>
    obtain ⟨t, _, _, hsteps, heq⟩ := steps_poll
      { Scope.any with ended := Accepted p.streams } trivial p.streams
    have hlevel := level_of_steps hsteps
    refine ⟨rfl, hs.level ?_⟩
    dsimp only [Party.call]
    rw [heq]
    exact { hlevel with }
  | setReceiveWindow receiveWindow =>
    have hsame := Level.refl p.streams
    refine ⟨rfl, hs.level ?_⟩
    change Level p.streams (p.streams.setReceiveWindow receiveWindow).2
    unfold setReceiveWindow
    split_ifs <;> exact { hsame with }
  | setSendWindow =>
    have hsame := Level.refl p.streams
    exact ⟨rfl, hs.level { hsame with }⟩
  | setMaxConcurrentStreams dir count =>
    have hbooks : Books { p.streams with
        flowControlAdjusted := true
        maxConcurrentRemoteCount :=
          update p.streams.maxConcurrentRemoteCount dir count } := by
      have hsame := Level.refl p.streams
      exact hs.level { hsame with }
    exact ⟨hbooks.toPlaced.insertRemoteFails dir _,
      hbooks.admits (admits_ensureRemoteStreams _ dir)⟩

theorem books_receive (h : Books p.streams) (payloadLen : Nat) (frame : StreamsFrame) :
    fails p (.receive payloadLen frame) = false ∧
      ∀ p', p.receive payloadLen frame = .ok p' → Books p'.streams := by
  constructor
  · cases frame with
    | stream frame => exact (books_received h frame payloadLen).1
    | resetStream id errorCode finalOffset =>
      exact (books_receivedReset h id errorCode finalOffset).1
    | _ => rfl
  · intro p' hp'
    have haccepts := (Party.receive_accepts hp').1
    generalize p'.streams = s' at haccepts ⊢
    cases haccepts with
    | stream frame hr => exact (books_received h frame payloadLen).2 _ hr
    | resetStream id errorCode finalOffset hr =>
      exact (books_receivedReset h id errorCode finalOffset).2 _ hr
    | stopSending id errorCode =>
      exact h.level (level_of_steps (steps_receivedStopSending _ id errorCode))
    | maxData =>
      have hsame := Level.refl p.streams
      exact h.level { hsame with }
    | maxStreamData _ _ hr =>
      exact h.level (level_of_steps (steps_receivedMaxStreamData trivial hr))
    | maxStreams _ _ hr =>
      unfold receivedMaxStreams at hr
      split_ifs at hr <;> cases hr
      · have hsame := Level.refl p.streams
        exact h.level { hsame with }
      · exact h
    | streamsBlocked => exact h

theorem inv_step (h : Inv p) (hop : Orderly p op) :
    fails p op = false ∧ ∀ p', system.step p op = some p' → Inv p' := by
  cases op with
  | call =>
    obtain ⟨hfails, hbooks⟩ := books_call h hop
    refine ⟨hfails, fun p' hp' => ?_⟩
    cases hp'
    exact ⟨(call_called h.tidy rfl).1, hbooks⟩
  | readUnordered => exact hop.elim
  | receivedReset id =>
    obtain ⟨hfails, hbooks⟩ := books_receivedResetCode h.books p.pending id
    refine ⟨hfails, fun p' hp' => ?_⟩
    cases hp'
    exact ⟨tidy_receivedResetCode h.tidy id, hbooks⟩
  | setPriority id priority =>
    refine ⟨rfl, fun p' hp' => ?_⟩
    cases hp'
    exact ⟨tidy_setPriority h.tidy id priority,
      h.books.level (level_of_steps (steps_setPriority _ id priority))⟩
  | receive payloadLen frame =>
    obtain ⟨hfails, hbooks⟩ := books_receive h.books payloadLen frame
    refine ⟨hfails, fun p' hp' => ?_⟩
    simp only [system, StreamSession.step] at hp'
    split at hp'
    · rename_i t ht
      cases hp'
      exact ⟨(receive_heard h.tidy ht).1, hbooks _ ht⟩
    · cases hp'
  | transmit =>
    refine ⟨rfl, fun p' hp' => ?_⟩
    simp only [system, StreamSession.step] at hp'
    split_ifs at hp' with hlimits
    obtain ⟨⟨_, t⟩, ht, rfl⟩ := map_eq_some_iff.mp hp'
    exact ⟨(transmit_sent h.tidy hlimits ht).1, h.books.level (level_transmit ht)⟩
  | acked frame =>
    have htidy := (acked_acked h.tidy frame).1
    have hbooks : fails p (.acked frame) = false ∧ Books (p.acked frame).streams := by
      cases frame with
      | stream => exact books_receivedAckOf h.books _
      | resetStream id =>
        change resetAckFails p.streams id = false ∧ Books (p.streams.resetAcked id)
        unfold resetAckFails resetAcked
        rcases hsend : p.streams.send id with _ | _ | half
        iterate 2 exact ⟨rfl, h.books⟩
        dsimp only
        rcases hreset : half.isReset with _ | _
        · exact ⟨rfl, h.books⟩
        · have hstate : half.state ≠ .ready := by
            intro hready
            simp [Send.isReset, hready] at hreset
          exact books_sendFreed h.books (by simp [hsend])
            (accepted_of_not_ready h.books hsend hstate)
      | _ => exact ⟨rfl, h.books⟩
    refine ⟨hbooks.1, fun p' hp' => ?_⟩
    cases hp'
    exact ⟨htidy, hbooks.2⟩
  | lost frame =>
    refine ⟨rfl, fun p' hp' => ?_⟩
    cases hp'
    refine ⟨(lost_lost h.tidy frame).1, ?_⟩
    cases frame with
    | stream => exact h.books.level (level_of_steps (steps_retransmit trivial _ trivial))
    | _ => exact h.books
  | setParams params =>
    refine ⟨rfl, fun p' hp' => ?_⟩
    cases hp'
    exact ⟨⟨h.tidy.fresh, h.tidy.ordered⟩, h.books.level (level_setParams _ params)⟩
  | retransmitAllFor0rtt =>
    refine ⟨rfl, fun p' hp' => ?_⟩
    cases hp'
    exact ⟨tidy_retransmitAllFor0rtt h.tidy,
      h.books.level (level_of_steps (steps_retransmitAllFor0rtt trivial (fun _ => trivial) _))⟩
  | zeroRttRejected =>
    refine ⟨rfl, fun p' hp' => ?_⟩
    obtain ⟨_, hrejected, rfl⟩ := map_eq_some_iff.mp hp'
    rw [(zeroRttRejected_eq_some_iff.mp hrejected).2]
    exact ⟨tidy_rejected h.tidy, h.books.rejected hop⟩

theorem inv_initial (h : system.initial p) : Inv p := by
  obtain ⟨side, _, _, _, _, _, rfl⟩ := h
  exact ⟨tidy_new side _ _ _ _ _, books_new side _ _ _ _ _⟩

theorem maxRemote_mono (hstep : system.step p op = some p') (dir : Dir) :
    p.streams.maxRemote dir ≤ p'.streams.maxRemote dir := by
  have heffect := step_effect hstep
  by_cases hopen : ∃ dir, op = .call (.openStream dir)
  · obtain ⟨dir', rfl⟩ := hopen
    cases hstep
    refine le_of_eq (congrFun ?_ dir)
    change _ = (openStream p.streams false dir').2.maxRemote
    have hopens := opens p.streams dir'
    generalize openStream p.streams false dir' = r at hopens ⊢
    cases hopens <;> rfl
  · by_cases hrejected : op = .zeroRttRejected
    · subst hrejected
      obtain ⟨streams, hrejected, rfl⟩ := map_eq_some_iff.mp hstep
      rw [(zeroRttRejected_eq_some_iff.mp hrejected).2]
      exact le_rfl
    · exact (heffect.seats (fun dir h => hopen ⟨dir, h⟩) hrejected).maxRemote dir

/-- An assertion fails as the first streams of the peer are inserted. -/
def newFails (side : Side)
    (maxRemoteUni maxRemoteBi sendWindow receiveWindow streamReceiveWindow : Nat) : Bool :=
  let s := StreamsState.new side 0 0 sendWindow receiveWindow streamReceiveWindow
  insertRemoteFails s .bi 0 maxRemoteBi ||
    insertRemoteFails (s.insertRemote .bi 0 maxRemoteBi) .uni 0 maxRemoteUni

/-- The peer is granted exactly the streams that still have a half, what it was granted is
never taken back, and no decrement or assertion fails. -/
theorem remote_accounting (hp : system.ReachableVia Orderly p) :
    (∀ side maxRemoteUni maxRemoteBi sendWindow receiveWindow streamReceiveWindow,
      newFails side maxRemoteUni maxRemoteBi sendWindow receiveWindow streamReceiveWindow = false) ∧
    (∀ dir, p.streams.allocatedRemoteCount dir = live p.streams dir) ∧
    (∀ dir, p.streams.sentMaxRemote dir ≤ p.streams.maxRemote dir) ∧
    ∀ op, Orderly p op → fails p op = false ∧ ∀ p', system.step p op = some p' →
        ∀ dir, p.streams.maxRemote dir ≤ p'.streams.maxRemote dir := by
  have hinv : Inv p :=
    hp.invariant (fun _ => inv_initial) fun _ _ _ h hop => (inv_step h hop).2 _
  refine ⟨fun side _ _ _ _ _ => Bool.or_eq_false_iff.mpr ⟨?_, ?_⟩, hinv.books.count,
    hinv.books.sent, fun op hop => ⟨(inv_step hinv hop).1, fun p' hstep => maxRemote_mono hstep⟩⟩
  · exact insertRemoteFails_eq_false fun _ _ => ⟨rfl, rfl⟩
  · refine insertRemoteFails_eq_false fun i _ => ⟨?_, ?_⟩
    · rw [send_insertRemote, if_neg]
      · rfl
      · rintro ⟨-, hdir⟩
        cases hdir
    · rw [recv_insertRemote_eq_none]
      refine ⟨?_, rfl⟩
      rintro ⟨-, hdir, -⟩
      cases hdir

def server : Party :=
  ⟨.new .server 0 1 100 100 100, .empty⟩

def request : StreamId :=
  ⟨.client, .bi, 0⟩

def orderlyNow (p : Party) : Operation → Bool
  | .call (.finish id) => decide (id.index < p.streams.nextReportedRemote id.dir)
  | .call (.reset _ _) | .readUnordered _ _ | .zeroRttRejected => false
  | _ => true

theorem orderly_of_orderlyNow (h : orderlyNow p op = true) : Orderly p op := by
  unfold orderlyNow at h
  split at h
  · exact fun _ => of_decide_eq_true h
  · cases h
  · cases h
  · cases h
  · unfold Orderly
    split <;> simp_all

/-- A stream is accepted, read to its end and finished; once the client has acknowledged
that, it may open another one. -/
theorem servedRequest_accounting :
    ∃ p, system.ReachableVia Orderly p ∧ p.streams.maxRemote .bi = 2 ∧
      live p.streams .bi = 1 ∧ p.streams.allocatedRemoteCount .bi = live p.streams .bi := by
  refine System.ReachableVia.exists_of_runChecked (fun _ _ => orderly_of_orderlyNow)
    (.initial (s := server) ⟨_, _, _, _, _, _, rfl⟩)
    [.setParams ⟨100, 100, 100, 1, 1, 100⟩, .receive 10 (.stream ⟨request, 0, true, [7]⟩),
      .call (.acceptStream .bi), .call (.read request [10, 10]), .call (.finish request),
      .transmit ⟨0, 50, false, []⟩, .acked (.stream ⟨request, 0, true, []⟩)] ?_
  exact ⟨_, rfl, fun hreach => ⟨rfl, by decide, (remote_accounting hreach).2.1 .bi⟩⟩

/-- A stream of the client is finished before it was accepted; where the client acknowledges
the end, there is no stream to subtract. -/
theorem unacceptedRequest_fails : ∃ p, system.Reachable p ∧ p.streams.sendStreams = 0 ∧
      fails p (.acked (.stream ⟨request, 0, true, []⟩)) = true := by
  have hinitial : system.Reachable server := .initial ⟨_, _, _, _, _, _, rfl⟩
  refine hinitial.exists_of_run [.setParams ⟨100, 100, 100, 1, 1, 100⟩,
    .receive 10 (.stream ⟨request, 0, false, [7]⟩), .call (.finish request),
    .transmit ⟨0, 50, false, []⟩] ?_
  exact ⟨_, rfl, rfl, rfl⟩

end Runs

end Quac.RemoteCount
