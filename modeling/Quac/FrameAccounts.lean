import Quac.StreamAccounts

/-!
What the frames of the peer, and acknowledgements and losses of our own, do to the
accounts of the streams.
-/

namespace Quac.FrameAccounts

open Function Identifiers RecvHalf SendHalf StreamAccounts Streams StreamsState

variable {recv recv' : Recv} {payloadLen errorCode : Nat}

variable {s s' : StreamsState} {id : StreamId}

structure Receivable (a : Accounts) (id : StreamId) : Prop where
  ours : id.initiator = a.side → id.dir = .bi ∧ id.index < a.next .bi
  theirs : id.initiator ≠ a.side → id.index < a.maxRemote id.dir

theorem validateReceiveId_eq_ok : s.validateReceiveId id = .ok () ↔ Receivable (accounts s) id := by
  have hiff : Receivable (accounts s) id ↔
      (id.initiator = s.side → id.dir = .bi ∧ id.index < s.next .bi) ∧
        (id.initiator ≠ s.side → id.index < s.maxRemote id.dir) :=
    ⟨fun h => ⟨h.ours, h.theirs⟩, fun h => ⟨h.1, h.2⟩⟩
  rw [hiff]
  unfold validateReceiveId
  by_cases hside : s.side = id.initiator
  · rcases hdir : id.dir with _ | _
    · by_cases hopen : s.next .bi ≤ id.index
      · simp [hside, hopen, Nat.not_lt_of_le hopen]
      · simp [hside, hopen, lt_of_not_ge hopen]
    · simp [hside]
  · by_cases hlimit : s.maxRemote id.dir ≤ id.index
    · simp [hside, hlimit, Ne.symm hside, Nat.not_lt_of_le hlimit]
    · simp [hside, hlimit, Ne.symm hside, lt_of_not_ge hlimit]

/-- The accounts after a STREAM frame with `newBytes` new bytes was accepted. -/
def ingested (a : Accounts) (frame : StreamFrame) (payloadLen : Nat) (recv : Recv) : Accounts :=
  { a.setRecv frame.id (recv.ingested frame payloadLen) with
    dataRecvd := (a.dataRecvd + (frame.offset + frame.data.length - recv.stop)).min (2 ^ 64 - 1) }

inductive Received (a : Accounts) (frame : StreamFrame) (payloadLen : Nat) : Accounts → Prop
  /-- The stream is closed, or was reset. -/
  | dropped (h : ∀ recv, a.recv frame.id = some recv → recv.isReceiving = false) :
      Received a frame payloadLen a
  | buffered (recv : Recv) (h : a.recv frame.id = some recv) (hreceiving : recv.isReceiving = true)
      (hadmits : recv.Admits (frame.offset + frame.data.length) frame.fin a.dataRecvd
        a.localMaxData) (hstopped : recv.stopped = false) :
      Received a frame payloadLen ((ingested a frame payloadLen recv).announce frame.id)
  | discarded (recv : Recv) (h : a.recv frame.id = some recv) (hreceiving : recv.isReceiving = true)
      (hadmits : recv.Admits (frame.offset + frame.data.length) frame.fin a.dataRecvd
        a.localMaxData) (hstopped : recv.stopped = true) (hfin : frame.fin = false) :
      Received a frame payloadLen ((ingested a frame payloadLen recv).credit
        (frame.offset + frame.data.length - recv.stop))
  | closed (recv : Recv) (h : a.recv frame.id = some recv) (hreceiving : recv.isReceiving = true)
      (hadmits : recv.Admits (frame.offset + frame.data.length) frame.fin a.dataRecvd
        a.localMaxData) (hstopped : recv.stopped = true) (hfin : frame.fin = true)
      (maxRemote allocatedRemoteCount : Dir → Nat)
      (hroom : ((ingested a frame payloadLen recv).removeRecv frame.id).Room frame.id .recv
        maxRemote allocatedRemoteCount) :
      Received a frame payloadLen ((((ingested a frame payloadLen recv).removeRecv frame.id).allot
        maxRemote allocatedRemoteCount).credit (frame.offset + frame.data.length - recv.stop))

variable {frame : StreamFrame}

theorem setRecv_setRecv : (s.setRecv id recv).setRecv id recv' = s.setRecv id recv' := by
  simp only [setRecv, update_idem]

theorem removeRecv_setRecv : (s.setRecv id recv).removeRecv id = s.removeRecv id := by
  simp only [setRecv, removeRecv, update_idem]

theorem dropped_or_receiving (hvalid : s.validateReceiveId frame.id = .ok ()) (payloadLen : Nat) :
    (∃ t, s.received frame payloadLen = .ok (false, t) ∧ (Fresh s → Fresh t) ∧
      Received (accounts s) frame payloadLen (accounts t)) ∨
    ∃ recv, s.getRecv frame.id = some recv ∧ recv.isReceiving = true := by
  rcases hrecv : s.getRecv frame.id with _ | recv
  · exact .inl ⟨s, by simp [received, hvalid, hrecv, bind, Except.bind, pure, Except.pure], id,
      .dropped fun recv h => by cases h.symm.trans hrecv⟩
  rcases hreceiving : recv.isReceiving with _ | _
  · refine .inl ⟨s.setRecv frame.id recv, ?_, fun hfresh => hfresh, ?_⟩
    · simp [received, hvalid, hrecv, hreceiving, bind, Except.bind, pure, Except.pure]
    · rw [accounts_getRecv hrecv]
      exact .dropped fun r hr => Option.some.inj (hrecv.symm.trans hr) ▸ hreceiving
  · exact .inr ⟨recv, rfl, hreceiving⟩

theorem received_eq {newBytes : Nat} {closed : Bool}
    (hvalid : s.validateReceiveId frame.id = .ok ())
    (hrecv : s.getRecv frame.id = some recv) (hreceiving : recv.isReceiving = true)
    (hingest : recv.ingest frame payloadLen s.dataRecvd s.localMaxData =
      .ok (newBytes, closed, recv')) {t : StreamsState}
    (ht : { s.setRecv frame.id recv' with
      dataRecvd := (s.dataRecvd + newBytes).min (2 ^ 64 - 1) } = t) :
    s.received frame payloadLen = .ok (if recv'.stopped then
        (if closed then (t.removeRecv frame.id).streamRecvFreed frame.id (.opened recv')
          else t).addReadCredits newBytes
      else (false, t.onStreamFrame true frame.id)) := by
  subst ht
  have hingest' : recv.ingest frame payloadLen (s.setRecv frame.id recv).dataRecvd
      (s.setRecv frame.id recv).localMaxData = .ok (newBytes, closed, recv') := hingest
  unfold received
  simp only [hvalid, hrecv, hreceiving, hingest', setRecv_setRecv, bind, Except.bind, Bool.not_true,
    Bool.false_eq_true, if_false]
  rcases recv'.stopped with _ | _ <;> rfl

theorem received_of_ok (hfresh : Fresh s) {maxData : Bool}
    (h : s.received frame payloadLen = .ok (maxData, s')) :
    Receivable (accounts s) frame.id ∧ Fresh s' ∧
      Received (accounts s) frame payloadLen (accounts s') := by
  rcases hvalid : s.validateReceiveId frame.id with e | ⟨⟩
  · simp [received, hvalid, bind, Except.bind] at h
  refine ⟨validateReceiveId_eq_ok.mp hvalid, ?_⟩
  obtain ⟨t, ht, hfresh', hdropped⟩ | ⟨recv, hrecv, hreceiving⟩ :=
    dropped_or_receiving hvalid payloadLen
  · cases ht.symm.trans h
    exact ⟨hfresh' hfresh, hdropped⟩
  rcases hingest : recv.ingest frame payloadLen s.dataRecvd s.localMaxData with
    e | ⟨newBytes, closed, recv'⟩
  · have hingest' : recv.ingest frame payloadLen (s.setRecv frame.id recv).dataRecvd
        (s.setRecv frame.id recv).localMaxData = .error e := hingest
    simp [received, hvalid, hrecv, hreceiving, hingest', bind, Except.bind] at h
  obtain ⟨hadmits, heq⟩ := Recv.ingest_eq_ok.mp hingest
  obtain ⟨rfl, rfl, rfl⟩ : newBytes = _ ∧ closed = _ ∧ recv' = _ := by
    simpa only [Prod.mk.injEq] using heq
  obtain ⟨t, ht⟩ : ∃ t : StreamsState, { s.setRecv frame.id (recv.ingested frame payloadLen) with
      dataRecvd := (s.dataRecvd + (frame.offset + frame.data.length - recv.stop)).min
        (2 ^ 64 - 1) } = t := ⟨_, rfl⟩
  rw [received_eq hvalid hrecv hreceiving hingest ht] at h
  have hset : accounts t = ingested (accounts s) frame payloadLen recv := by
    rw [← ht, ingested, ← accounts_setRecv]
    rfl
  have hfresh' : Fresh t := ht ▸ hfresh
  have hstop' : (recv.ingested frame payloadLen).stopped = recv.stopped := rfl
  rw [hstop'] at h
  rcases hstopped : recv.stopped with _ | _
  · rw [if_neg (by simp [hstopped])] at h
    cases h
    refine ⟨fresh_onStreamFrame hfresh' true, ?_⟩
    rw [accounts_onStreamFrame, hset]
    exact .buffered recv hrecv hreceiving hadmits hstopped
  rw [if_pos hstopped] at h
  rcases hfin : frame.fin with _ | _
  · simp only [hfin, Bool.false_and, Bool.false_eq_true, if_false] at h
    obtain rfl : (t.addReadCredits _).2 = s' := congrArg Prod.snd (Except.ok.inj h)
    refine ⟨fresh_addReadCredits hfresh' _, ?_⟩
    rw [accounts_addReadCredits, hset]
    exact .discarded recv hrecv hreceiving hadmits hstopped hfin
  · simp only [hfin, hstopped, Bool.true_and, if_true] at h
    obtain rfl : (addReadCredits _ _).2 = s' := congrArg Prod.snd (Except.ok.inj h)
    obtain ⟨hfresh'', maxRemote, allocated, hroom, hfreed⟩ := accounts_streamRecvFreed
      (s := t.removeRecv frame.id) hfresh' frame.id (recv.ingested frame payloadLen)
    rw [accounts_removeRecv, hset] at hroom hfreed
    refine ⟨fresh_addReadCredits hfresh'' _, ?_⟩
    rw [accounts_addReadCredits, hfreed]
    exact .closed recv hrecv hreceiving hadmits hstopped hfin maxRemote allocated hroom

/-- Nothing but the checks of the half and of the stream's identifier can fail. -/
theorem received_isOk (hvalid : Receivable (accounts s) frame.id)
    (hadmits : ∀ recv, (accounts s).recv frame.id = some recv → recv.isReceiving = true →
      recv.Admits (frame.offset + frame.data.length) frame.fin s.dataRecvd s.localMaxData) :
    ∃ result, s.received frame payloadLen = .ok result := by
  have hvalid := validateReceiveId_eq_ok.mpr hvalid
  obtain ⟨_, ht, -⟩ | ⟨recv, hrecv, hreceiving⟩ := dropped_or_receiving hvalid payloadLen
  · exact ⟨_, ht⟩
  exact ⟨_, received_eq hvalid hrecv hreceiving
    (Recv.ingest_eq_ok.mpr ⟨hadmits recv hrecv hreceiving, rfl⟩) rfl⟩

def resetHalf (recv : Recv) (errorCode finalOffset : Nat) : Recv :=
  { recv with state := .resetRecvd finalOffset errorCode, assembler := recv.assembler.clear }

/-- The whole stream counts as received, and what was not read of it as read. -/
def settle (a : Accounts) (recv : Recv) (finalOffset : Nat) : Accounts :=
  if recv.assembler.bytesRead ≠ finalOffset then
    Accounts.credit
      { a with dataRecvd :=
          (a.dataRecvd + StreamsState.wrappingSub finalOffset recv.stop).min (2 ^ 64 - 1) }
      (StreamsState.wrappingSub finalOffset recv.assembler.bytesRead)
  else a

inductive ReceivedReset (a : Accounts) (id : StreamId) (errorCode finalOffset : Nat) :
    Accounts → Prop
  /-- The stream is closed, or was reset. -/
  | redundant (h : ∀ recv, a.recv id = some recv → recv.isReceiving = false) :
      ReceivedReset a id errorCode finalOffset a
  | reset (recv : Recv) (h : a.recv id = some recv) (hreceiving : recv.isReceiving = true)
      (hadmits : recv.AdmitsReset finalOffset a.dataRecvd a.localMaxData)
      (hstopped : recv.stopped = false) :
      ReceivedReset a id errorCode finalOffset
        (settle ((a.setRecv id (resetHalf recv errorCode finalOffset)).announce id) recv
          finalOffset)
  | closed (recv : Recv) (h : a.recv id = some recv) (hreceiving : recv.isReceiving = true)
      (hadmits : recv.AdmitsReset finalOffset a.dataRecvd a.localMaxData)
      (hstopped : recv.stopped = true) (maxRemote allocatedRemoteCount : Dir → Nat)
      (hroom : (a.removeRecv id).Room id .recv maxRemote allocatedRemoteCount) :
      ReceivedReset a id errorCode finalOffset
        (settle (((a.removeRecv id).allot maxRemote allocatedRemoteCount).announce id) recv
          finalOffset)

variable {finalOffset : Nat}

theorem redundant_or_receiving (hvalid : s.validateReceiveId id = .ok ())
    (hadmits : ∀ recv, s.getRecv id = some recv →
      recv.AdmitsReset finalOffset s.dataRecvd s.localMaxData) :
    (∃ t, s.receivedReset id errorCode finalOffset = .ok (false, t) ∧ (Fresh s → Fresh t) ∧
      ReceivedReset (accounts s) id errorCode finalOffset (accounts t)) ∨
    ∃ recv, s.getRecv id = some recv ∧ recv.isReceiving = true ∧
      recv.reset errorCode finalOffset s.dataRecvd s.localMaxData =
        .ok (some (resetHalf recv errorCode finalOffset)) := by
  rcases hrecv : s.getRecv id with _ | recv
  · exact .inl ⟨s, by simp [receivedReset, hvalid, hrecv, bind, Except.bind, pure, Except.pure],
      fun hfresh => hfresh, .redundant fun recv h => by cases h.symm.trans hrecv⟩
  have hreset : recv.reset errorCode finalOffset s.dataRecvd s.localMaxData =
      .ok (if recv.isReceiving then some (resetHalf recv errorCode finalOffset) else none) :=
    Recv.reset_eq_ok_iff.mpr ⟨hadmits recv hrecv, rfl⟩
  rcases hreceiving : recv.isReceiving with _ | _
  · rw [if_neg (by simp [hreceiving])] at hreset
    have hreset' : recv.reset errorCode finalOffset (s.setRecv id recv).dataRecvd
        (s.setRecv id recv).localMaxData = .ok none := hreset
    refine .inl ⟨s.setRecv id recv, ?_, fun hfresh => hfresh, ?_⟩
    · simp [receivedReset, hvalid, hrecv, hreset', bind, Except.bind, pure, Except.pure]
    · rw [accounts_getRecv hrecv]
      exact .redundant fun r hr => Option.some.inj (hrecv.symm.trans hr) ▸ hreceiving
  · rw [if_pos hreceiving] at hreset
    exact .inr ⟨recv, rfl, hreceiving, hreset⟩

theorem receivedReset_eq (hvalid : s.validateReceiveId id = .ok ())
    (hrecv : s.getRecv id = some recv)
    (hreset : recv.reset errorCode finalOffset s.dataRecvd s.localMaxData = .ok (some recv'))
    {t : StreamsState} (ht : (if recv'.stopped then
      (s.removeRecv id).streamRecvFreed id (.opened recv')
      else s.setRecv id recv').onStreamFrame (!recv'.stopped) id = t) :
    s.receivedReset id errorCode finalOffset = .ok (if recv'.assembler.bytesRead ≠ finalOffset then
        addReadCredits
          { t with dataRecvd :=
              (t.dataRecvd + wrappingSub finalOffset recv'.stop).min (2 ^ 64 - 1) }
          (wrappingSub finalOffset recv'.assembler.bytesRead)
      else (false, t)) := by
  subst ht
  have hreset' : recv.reset errorCode finalOffset (s.setRecv id recv).dataRecvd
      (s.setRecv id recv).localMaxData = .ok (some recv') := hreset
  unfold receivedReset
  simp only [hvalid, hrecv, hreset', setRecv_setRecv, removeRecv_setRecv, bind, Except.bind]
  split_ifs <;> rfl

theorem accounts_settle (t : StreamsState) (finalOffset : Nat)
    (hread : recv'.assembler.bytesRead = recv.assembler.bytesRead)
    (hstop : recv'.stop = recv.stop) :
    accounts (if recv'.assembler.bytesRead ≠ finalOffset then
        addReadCredits
          { t with dataRecvd :=
              (t.dataRecvd + wrappingSub finalOffset recv'.stop).min (2 ^ 64 - 1) }
          (wrappingSub finalOffset recv'.assembler.bytesRead)
      else (false, t)).2 = settle (accounts t) recv finalOffset := by
  rw [hread, hstop]
  unfold settle
  split_ifs
  · rw [accounts_addReadCredits]
    rfl
  · rfl

theorem receivedReset_of_ok (hfresh : Fresh s) {maxData : Bool}
    (h : s.receivedReset id errorCode finalOffset = .ok (maxData, s')) :
    Receivable (accounts s) id ∧ Fresh s' ∧
      ReceivedReset (accounts s) id errorCode finalOffset (accounts s') := by
  rcases hvalid : s.validateReceiveId id with e | ⟨⟩
  · simp [receivedReset, hvalid, bind, Except.bind] at h
  refine ⟨validateReceiveId_eq_ok.mp hvalid, ?_⟩
  have hadmits : ∀ recv, s.getRecv id = some recv →
      recv.AdmitsReset finalOffset s.dataRecvd s.localMaxData := by
    intro recv hrecv
    rcases hreset : recv.reset errorCode finalOffset s.dataRecvd s.localMaxData with e | _
    · have hreset' : recv.reset errorCode finalOffset (s.setRecv id recv).dataRecvd
          (s.setRecv id recv).localMaxData = .error e := hreset
      simp [receivedReset, hvalid, hrecv, hreset', bind, Except.bind] at h
    · exact (Recv.reset_eq_ok_iff.mp hreset).1
  obtain ⟨t, ht, hfresh', hredundant⟩ | ⟨recv, hrecv, hreceiving, hreset⟩ :=
    redundant_or_receiving hvalid hadmits
  · cases ht.symm.trans h
    exact ⟨hfresh' hfresh, hredundant⟩
  have hadmits := hadmits recv hrecv
  obtain ⟨t, ht⟩ : ∃ t, (if recv.stopped then
      (s.removeRecv id).streamRecvFreed id (.opened (resetHalf recv errorCode finalOffset))
      else s.setRecv id (resetHalf recv errorCode finalOffset)).onStreamFrame
        (!recv.stopped) id = t := ⟨_, rfl⟩
  rw [receivedReset_eq hvalid hrecv hreset ht] at h
  have hsettle := accounts_settle t finalOffset
    (show (resetHalf recv errorCode finalOffset).assembler.bytesRead = recv.assembler.bytesRead
      from rfl) (show (resetHalf recv errorCode finalOffset).stop = recv.stop from rfl)
  rw [show _ = s' from congrArg Prod.snd (Except.ok.inj h)] at hsettle
  have hfresh' : Fresh t → Fresh s' := by
    intro hfresh
    rw [← show _ = s' from congrArg Prod.snd (Except.ok.inj h)]
    split_ifs
    · refine fresh_addReadCredits ?_ _
      exact hfresh
    · exact hfresh
  rw [hsettle]
  rcases hstopped : recv.stopped with _ | _
  · rw [if_neg (by simp [hstopped])] at ht
    subst ht
    refine ⟨hfresh' (fresh_onStreamFrame (s := s.setRecv id _) hfresh _), ?_⟩
    rw [accounts_onStreamFrame, accounts_setRecv]
    exact .reset recv hrecv hreceiving hadmits hstopped
  · rw [if_pos hstopped] at ht
    subst ht
    obtain ⟨hfreed, maxRemote, allocated, hroom, heq⟩ := accounts_streamRecvFreed
      (s := s.removeRecv id) hfresh id (resetHalf recv errorCode finalOffset)
    rw [accounts_removeRecv] at hroom heq
    refine ⟨hfresh' (fresh_onStreamFrame hfreed _), ?_⟩
    rw [accounts_onStreamFrame, heq]
    exact .closed recv hrecv hreceiving hadmits hstopped maxRemote allocated hroom

theorem receivedReset_isOk (hvalid : Receivable (accounts s) id)
    (hadmits : ∀ recv, (accounts s).recv id = some recv →
      recv.AdmitsReset finalOffset s.dataRecvd s.localMaxData) :
    ∃ result, s.receivedReset id errorCode finalOffset = .ok result := by
  have hvalid := validateReceiveId_eq_ok.mpr hvalid
  obtain ⟨_, ht, -⟩ | ⟨recv, hrecv, _, hreset⟩ := redundant_or_receiving hvalid hadmits
  · exact ⟨_, ht⟩
  · exact ⟨_, receivedReset_eq hvalid hrecv hreset rfl⟩

def raise (half : Outgoing) (offset : Nat) : Outgoing :=
  if offset ≤ half.maxData ∨ half.state ≠ .ready then half else { half with maxData := offset }

theorem receivedMaxStreamData_isOk {offset : Nat} (htheirs : id.initiator ≠ s.side → id.dir = .bi)
    (hours : id.initiator = s.side → id.index < s.next id.dir) :
    ∃ s', s.receivedMaxStreamData id offset = .ok s' := by
  unfold receivedMaxStreamData
  rw [if_neg (fun h => by simp [htheirs h.1] at h)]
  rcases s.getSend id with _ | _
  · refine ⟨_, if_neg ?_⟩
    rintro ⟨hside, hopen⟩
    have := hours hside
    simp only [isLocalUnopened, decide_eq_true_eq] at hopen
    omega
  · dsimp only
    split_ifs <;> exact ⟨_, rfl⟩

theorem receivedMaxStreams_of_ok (hfresh : Fresh s) {dir : Dir} {count : Nat}
    (h : s.receivedMaxStreams dir count = .ok s') : Fresh s' ∧ accounts s' = { accounts s with
        max := update s.max dir ((s.max dir).max count) } := by
  unfold receivedMaxStreams at h
  split_ifs at h with hlarge hmore <;> cases h
  · refine ⟨hfresh, ?_⟩
    rw [show (s.max dir).max count = count from Nat.max_eq_right (le_of_lt hmore)]
    rfl
  · refine ⟨hfresh, ?_⟩
    rw [show (s.max dir).max count = s.max dir from Nat.max_eq_left (le_of_not_gt hmore),
      update_eq_self]
    rfl

def ackedHalf (half : Outgoing) (frame : StreamMeta) : Outgoing :=
  { half with
    buffer := half.buffer.ack frame.start frame.stop
    state :=
      match half.state with
      | .dataSent finishAcked => .dataSent (finishAcked || frame.fin)
      | state => state }

end Quac.FrameAccounts
