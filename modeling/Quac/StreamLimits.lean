import Quac.ReceiveLedger
import Quac.StreamDelivery

/-!
The limits between two sides.  What one side has offered bounds what the other sends,
and it has room for all that it has offered.
-/

namespace Quac.StreamLimits

open CallAccounts FrameAccounts Function Identifiers Lib.Registry Lib.Tallies PartySteps
open ReceiveLedger RecvHalf StreamAccess StreamAccounts StreamDelivery StreamHalves
open StreamLink StreamParty StreamTransmit Streams TransmitAccounts Each

variable {c : Call} {r : Reply} {payloadLen bound : Nat}

structure Offer where
  maxData : Nat
  streams : Dir → Nat
  streamData : StreamId → Nat

structure Offer.Grows (o o' : Offer) : Prop where
  maxData : o.maxData ≤ o'.maxData
  streams : ∀ dir, o.streams dir ≤ o'.streams dir
  streamData : ∀ id, o.streamData id ≤ o'.streamData id

theorem Offer.Grows.refl (o : Offer) : o.Grows o :=
  ⟨le_rfl, fun _ => le_rfl, fun _ => le_rfl⟩

theorem Offer.Grows.trans {o o' o'' : Offer} (h : o.Grows o') (h' : o'.Grows o'') : o.Grows o'' :=
  ⟨h.maxData.trans h'.maxData, fun dir => (h.streams dir).trans (h'.streams dir),
    fun id => (h.streamData id).trans (h'.streamData id)⟩

/-- The offer of a side that has offered `granted` for each stream. -/
def offer (a : Accounts) (granted : StreamId → Nat) : Offer :=
  ⟨a.sentMaxData, a.sentMaxRemote, granted⟩

variable {frame : StreamsFrame}

section Sender

structure Obeys (a : Accounts) (log : Log) (o : Offer) : Prop where
  maxData : a.maxData ≤ o.maxData
  max : ∀ dir, a.max dir ≤ o.streams dir
  next : ∀ dir, a.next dir ≤ a.max dir
  initial : ∀ id, a.maxSendData id ≤ o.streamData id
  dataSent : a.dataSent ≤ a.maxData
  total : ∃ t : Tally StreamId, (∀ id, t.count id = (log.written id).length) ∧ t.total = a.dataSent
  written : ∀ id, (log.written id).length ≤ o.streamData id
  each : EachSend a (fun id => log.written id = []) fun id half =>
    (log.written id).length ≤ half.maxData ∧ half.maxData ≤ o.streamData id ∧
      (id.initiator ≠ a.side → id.dir = .bi)

variable {a a' : Accounts} {q q' : Retransmits} {log : Log} {o o' : Offer} {id : StreamId}
  {half half' : Outgoing}

theorem Obeys.mono (h : Obeys a log o) (ho : o.Grows o') : Obeys a log o' :=
  ⟨h.maxData.trans ho.maxData, fun dir => (h.max dir).trans (ho.streams dir), h.next,
    fun id => (h.initial id).trans (ho.streamData id), h.dataSent, h.total,
    fun id => (h.written id).trans (ho.streamData id),
    Each.mono h.each (fun _ h => h) fun id _ hhalf =>
      ⟨hhalf.1, hhalf.2.1.trans (ho.streamData id), hhalf.2.2⟩⟩

/-- What the peer may count never exceeds its offer. -/
theorem Obeys.total_le (h : Obeys a log o) {t : Tally StreamId}
    (ht : ∀ id, t.count id ≤ (log.written id).length) : t.total ≤ o.maxData := by
  obtain ⟨u, hcount, htotal⟩ := h.total
  have hle : t.total ≤ u.total := Tally.total_le_total fun id => by
    rw [hcount id]
    exact ht id
  calc t.total
    _ ≤ a.dataSent := htotal ▸ hle
    _ ≤ a.maxData := h.dataSent
    _ ≤ o.maxData := h.maxData

theorem Obeys.same (h : Obeys a log o) (hsame : SameSending a a') : Obeys a' log o := by
  obtain ⟨hstreams, hinitial, hmax, hmaxData, hdataSent⟩ := hsame
  refine ⟨hmaxData ▸ h.maxData, hmax ▸ h.max, ?_, hinitial ▸ h.initial, ?_, ?_, h.written, ?_⟩
  · rw [hmax, hstreams.next]
    exact h.next
  · rw [hmaxData, hdataSent]
    exact h.dataSent
  · rw [hdataSent]
    exact h.total
  · rw [hstreams.side]
    exact EachSend.same (a := { a with recv := a'.recv }) h.each hstreams

theorem Obeys.allot (h : Obeys a log o) {maxRemote : Dir → Nat}
    (hle : ∀ dir, a.maxRemote dir ≤ maxRemote dir) (allocatedRemoteCount : Dir → Nat) :
    Obeys (a.allot maxRemote allocatedRemoteCount) log o := by
  refine { h with
    each := EachSend.allot h.each (fun id hdir hnew => ⟨?_, h.initial id, fun _ => hdir⟩) hle }
  rw [hnew]
  exact Nat.zero_le _

theorem Obeys.rests (h : Obeys a log o) (hrests : Rests a a') : Obeys a' log o := by
  cases hrests with
  | same h' => exact h.same h'
  | allot _ allocated hle h' => exact (h.allot hle allocated).same h'

theorem Obeys.openLocal (h : Obeys a log o) {dir : Dir} (hlt : a.next dir < a.max dir) :
    Obeys (a.openLocal dir) log o := by
  refine ⟨h.maxData, h.max, fun d => ?_, h.initial, h.dataSent, h.total, h.written,
    EachSend.openLocal h.each
      (fun id hside hnew => ⟨?_, h.initial id, fun hne => absurd hside hne⟩) dir⟩
  · simp only [Accounts.openLocal, update_apply]
    split_ifs with hd
    · rw [hd]
      exact hlt
    · exact h.next d
  · rw [hnew]
    exact Nat.zero_le _

theorem Obeys.setSend (h : Obeys a log o) (hsend : a.send id = some half)
    (hgrows : half.maxData ≤ half'.maxData) (hle : half'.maxData ≤ o.streamData id) :
    Obeys (a.setSend id half') log o := by
  obtain ⟨hwritten, -, hdir⟩ := entry h.each id half hsend
  exact ⟨h.maxData, h.max, h.next, h.initial, h.dataSent, h.total, h.written,
    set h.each (by simp [hsend]) (fun _ _ h => h) (fun _ _ _ h => h)
      ⟨hwritten.trans hgrows, hle, hdir⟩⟩

theorem Obeys.setSame (h : Obeys a log o) (hsend : a.send id = some half)
    (hsame : half'.maxData = half.maxData) : Obeys (a.setSend id half') log o := by
  obtain ⟨-, hle, -⟩ := entry h.each id half hsend
  exact h.setSend hsend hsame.ge (hsame.le.trans hle)

theorem Obeys.removeSend (h : Obeys a log o) (hsend : a.send id = some half) :
    Obeys (a.removeSend id) log o :=
  { h with each := erase h.each (by simp [hsend]) (fun _ _ h => h) fun _ _ _ h => h }

theorem maxData_write (half : Outgoing) (data : Bytes) :
    (half.write data).maxData = half.maxData := by
  unfold Outgoing.write
  split_ifs <;> rfl

/-- A write takes what the connection and the stream have left. -/
theorem Obeys.write (h : Obeys a log o) (hs : Sender a log) {data : Bytes} {n : Nat}
    (hsend : a.send id = some half) (hconnection : n ≤ a.maxData - a.dataSent)
    (hstream : n ≤ half.maxData - half.buffer.offset) (hlen : n ≤ data.length) :
    Obeys { a.setSend id (half.write (data.take n)) with dataSent := a.dataSent + n }
      (log.called (.write id data) (.wrote (.ok n))) o := by
  obtain ⟨_, hle, hdir⟩ := entry h.each id half hsend
  have hoffset : half.buffer.offset = (log.written id).length := (hs.sending hsend).carries.offset
  have hdataSent := h.dataSent
  have hlength : (log.written id ++ data.take n).length = (log.written id).length + n := by
    rw [List.length_append, List.length_take, Nat.min_eq_left hlen]
  have hself : (log.called (.write id data) (.wrote (.ok n))).written id =
      log.written id ++ data.take n := update_self _ _ _
  have hother : ∀ j, j ≠ id → (log.called (.write id data) (.wrote (.ok n))).written j =
      log.written j := fun j hj => update_of_ne hj _ _
  refine ⟨h.maxData, h.max, h.next, h.initial, ?_, ?_, fun j => ?_, ?_⟩
  · change a.dataSent + n ≤ a.maxData
    omega
  · obtain ⟨t, hcount, _⟩ := h.total
    refine ⟨t.set id ((log.written id).length + n), fun j => ?_, ?_⟩
    · rcases eq_or_ne j id with rfl | hj
      · rw [Tally.set_count_self, hself, hlength]
      · rw [t.set_count_of_ne hj, hother j hj]
        exact hcount j
    · have hset := t.total_set id ((log.written id).length + n)
      rw [hcount id] at hset
      change _ = a.dataSent + n
      omega
  · rcases eq_or_ne j id with rfl | hj
    · rw [hself, hlength]
      omega
    · rw [hother j hj]
      exact h.written j
  · refine set h.each (by simp [hsend]) (fun j hj hnew => ?_) (fun j hj y hy => ?_) ?_
    · rw [hother j hj]
      exact hnew
    · rw [hother j hj]
      exact hy
    · rw [hself, hlength, maxData_write]
      exact ⟨by omega, hle, hdir⟩

theorem Obeys.relog (h : Obeys a log o) {log' : Log} (hlog : log'.written = log.written) :
    Obeys a log' o := by
  refine { h with total := ?_, written := ?_, each := ?_ }
  · rw [hlog]
    exact h.total
  · rw [hlog]
    exact h.written
  · rw [hlog]
    exact h.each

theorem Called.obeys (h : Called a q c r a' q') (hs : Sender a log)
    (ho : Obeys a log o) : Obeys a' (log.called c r) o := by
  have hrests := Called.rests h
  cases h with
  | opened _ hlt => exact ho.openLocal hlt
  | wrote _ _ _ _ h _ hconnection hstream hlen =>
    exact ho.write hs h hconnection hstream hlen
  | finished id half h =>
    have hset : Obeys (a.setSend id { half with state := .dataSent false }) log o :=
      ho.setSame h rfl
    exact hset.relog rfl
  | reset id _ half h =>
    have hset : Obeys (a.setSend id { half with state := .resetSent }) log o := ho.setSame h rfl
    exact hset.relog rfl
  | readFailed => exact ho.relog rfl
  | read | readUp => exact (ho.rests (hrests trivial)).relog rfl
  | stopped | stoppedUp | receiveWindow | maxConcurrent => exact ho.rests (hrests trivial)
  | accepted => exact ho.same ⟨⟨rfl, rfl, rfl, rfl, rfl⟩, rfl, rfl, rfl, rfl⟩
  | _ => exact ho

/-- A frame offers no more than its sender has offered. -/
def Within (o : Offer) : StreamsFrame → Prop
  | .maxData limit => limit ≤ o.maxData
  | .maxStreamData id limit => limit ≤ o.streamData id
  | .maxStreams dir count => count ≤ o.streams dir
  | _ => True

theorem Within.mono (h : Within o frame) (ho : o.Grows o') :
    Within o' frame := by
  cases frame with
  | maxData => exact h.trans ho.maxData
  | maxStreamData id => exact h.trans (ho.streamData id)
  | maxStreams dir => exact h.trans (ho.streams dir)
  | _ => exact trivial

theorem Heard.obeys (h : Heard a payloadLen frame a')
    (ho : Obeys a log o) (hframe : Within o frame) : Obeys a' log o := by
  cases h with
  | stream _ _ _ h => exact ho.rests (Received.rests h)
  | resetStream _ _ _ _ _ h => exact ho.rests (ReceivedReset.rests h)
  | stopSending id => exact ho.same (sameSending_announce a id)
  | maxData =>
    exact { ho with
      maxData := Nat.max_le.mpr ⟨ho.maxData, hframe⟩
      dataSent := ho.dataSent.trans (Nat.le_max_left _ _) }
  | maxStreamData id limit half h =>
    have hraised : half.maxData ≤ (raise half limit).maxData ∧
        (raise half limit).maxData ≤ o.streamData id := by
      have hle := (entry ho.each id half h).2.1
      unfold raise
      split_ifs with hsame
      · exact ⟨le_rfl, hle⟩
      · rw [not_or, not_le] at hsame
        exact ⟨hsame.1.le, hframe⟩
    exact (ho.setSend h hraised.1 hraised.2).same (sameSending_announce _ id)
  | maxStreamDataClosed id => exact ho.same (sameSending_announce a id)
  | maxStreams dir count =>
    have hmax : ∀ d, update a.max dir ((a.max dir).max count) d ≤ o.streams d ∧
        a.max d ≤ update a.max dir ((a.max dir).max count) d := by
      intro d
      rcases eq_or_ne d dir with rfl | hne
      · rw [update_self]
        exact ⟨Nat.max_le.mpr ⟨ho.max d, hframe⟩, Nat.le_max_left _ _⟩
      · rw [update_of_ne hne]
        exact ⟨ho.max d, le_rfl⟩
    exact { ho with max := fun d => (hmax d).1, next := fun d => (ho.next d).trans (hmax d).2 }
  | _ => exact ho

theorem Fate.obeys (h : Fate a a') (ho : Obeys a log o) : Obeys a' log o := by
  cases h with
  | same => exact ho
  | moved h hsame => exact ho.setSame h hsame
  | freed h hroom => exact (ho.removeSend h).allot hroom.le _

theorem Emits.obeys (h : Emits q a frame a') (ho : Obeys a log o) :
    Obeys a' log o := by
  cases h with
  | stream _ _ h => exact ho.setSame h rfl
  | maxStreamData id => exact ho.same (sameSending_setRecv a id _)
  | maxData | maxStreams => exact ho.same ⟨⟨rfl, rfl, rfl, rfl, rfl⟩, rfl, rfl, rfl, rfl⟩
  | _ => exact ho

end Sender

section Receiver

structure Grants (a : Accounts) (granted : StreamId → Nat) : Prop where
  maxData : a.sentMaxData ≤ a.localMaxData
  streams : ∀ dir, a.sentMaxRemote dir ≤ a.maxRemote dir
  each : EachRecv a (fun id => granted id ≤ a.streamReceiveWindow) fun id recv =>
    granted id ≤ recv.sentMaxStreamData ∧
      recv.sentMaxStreamData ≤ recv.assembler.bytesRead + a.streamReceiveWindow ∧
      (id.initiator = a.side → id.dir = .bi)

variable {a a' : Accounts} {q q' : Retransmits} {granted : StreamId → Nat} {id : StreamId}
  {recv recv' : Recv}

theorem Grants.same (h : Grants a granted) (hsame : SameStreams a a')
    (hwindow : a'.streamReceiveWindow = a.streamReceiveWindow)
    (hmaxData : a'.sentMaxData ≤ a'.localMaxData) (hstreams : a'.sentMaxRemote = a.sentMaxRemote) :
    Grants a' granted := by
  refine ⟨hmaxData, ?_, ?_⟩
  · rw [hstreams, hsame.maxRemote]
    exact h.streams
  · rw [hwindow, hsame.side]
    exact EachRecv.same h.each hsame

theorem Grants.credit (h : Grants a granted) (hbound : a.sentMaxData < 2 ^ 60) (n : Nat) :
    Grants (a.credit n) granted := by
  have hle := h.maxData
  have hmaxData : (a.credit n).sentMaxData ≤ (a.credit n).localMaxData := by
    unfold Accounts.credit
    split_ifs
    · refine Nat.le_min.mpr ⟨?_, ?_⟩ <;> dsimp only <;> omega
    · exact hle
  refine h.same (sameStreams_credit a n) ?_ hmaxData ?_
  all_goals
    unfold Accounts.credit
    split_ifs <;> rfl

theorem Grants.resized (h : Grants a granted) (hbound : a.sentMaxData < 2 ^ 60)
    (receiveWindow : Nat) : Grants (resized a receiveWindow) granted := by
  have hle := h.maxData
  have hmaxData : (CallAccounts.resized a receiveWindow).sentMaxData ≤
      (CallAccounts.resized a receiveWindow).localMaxData := by
    unfold CallAccounts.resized
    split_ifs
    · refine Nat.le_min.mpr ⟨?_, ?_⟩ <;> dsimp only <;> omega
    · exact hle
  refine h.same (sameStreams_resized a receiveWindow) ?_ hmaxData ?_
  all_goals
    unfold CallAccounts.resized
    split_ifs <;> rfl

theorem Grants.announce (h : Grants a granted) (id : StreamId) :
    Grants (a.announce id) granted := by
  unfold Accounts.announce
  split_ifs
  · exact h
  · exact { h with }

theorem sentMaxData_announce (a : Accounts) (id : StreamId) :
    (a.announce id).sentMaxData = a.sentMaxData := by
  unfold Accounts.announce
  split_ifs <;> rfl

theorem Grants.settle (h : Grants a granted) (hbound : a.sentMaxData < 2 ^ 60) (recv : Recv)
    (finalOffset : Nat) : Grants (settle a recv finalOffset) granted := by
  unfold FrameAccounts.settle
  split_ifs
  · refine Grants.credit ?_ ?_ _
    · exact { h with }
    · exact hbound
  · exact h

theorem Grants.allot (h : Grants a granted) {maxRemote : Dir → Nat}
    (hle : ∀ dir, a.maxRemote dir ≤ maxRemote dir) (allocatedRemoteCount : Dir → Nat) :
    Grants (a.allot maxRemote allocatedRemoteCount) granted :=
  ⟨h.maxData, fun dir => (h.streams dir).trans (hle dir), EachRecv.allot h.each
      (fun _ hside hnew => ⟨hnew, Nat.le_add_left _ _, fun heq => absurd heq hside⟩) hle⟩

theorem Grants.openLocal (h : Grants a granted) (dir : Dir) : Grants (a.openLocal dir) granted :=
  ⟨h.maxData, h.streams,
    EachRecv.openLocal h.each (fun _ hdir hnew => ⟨hnew, Nat.le_add_left _ _, fun _ => hdir⟩) dir⟩

theorem Grants.setRecv (h : Grants a granted) (hrecv : a.recv id = some recv)
    (hlimit : recv'.sentMaxStreamData = recv.sentMaxStreamData)
    (hread : recv.assembler.bytesRead ≤ recv'.assembler.bytesRead) :
    Grants (a.setRecv id recv') granted := by
  obtain ⟨hgranted, hle, hdir⟩ := entry h.each id recv hrecv
  refine ⟨h.maxData, h.streams,
    set h.each (by simp [hrecv]) (fun _ _ h => h) (fun _ _ _ h => h) ⟨?_, ?_, hdir⟩⟩
  · rw [hlimit]
    exact hgranted
  · rw [hlimit]
    exact hle.trans (Nat.add_le_add_right hread _)

theorem Grants.removeRecv (h : Grants a granted) (hrecv : a.recv id = some recv) :
    Grants (a.removeRecv id) granted :=
  ⟨h.maxData, h.streams, erase h.each (by simp [hrecv]) (fun _ _ h => h) fun _ _ _ h => h⟩

theorem Called.grants (h : Called a q c r a' q') (hg : Grants a granted)
    (hbound : a.sentMaxData < 2 ^ 60) : Grants a' granted := by
  cases h with
  | opened dir => exact hg.openLocal dir
  | read _ _ _ _ _ h _ hreads =>
    refine Grants.credit (hg.setRecv h ?_ ?_) hbound _
    · rfl
    · rw [hreads.bytesRead.1]
      exact Nat.le_add_right _ _
  | readUp _ _ _ _ _ h _ _ _ _ allocated hroom =>
    exact Grants.credit ((hg.removeRecv h).allot hroom.le allocated) hbound _
  | stopped _ _ _ h =>
    refine Grants.credit (hg.setRecv h ?_ ?_) hbound _
    · rfl
    · exact le_rfl
  | stoppedUp _ _ _ h _ _ _ allocated hroom =>
    exact Grants.credit ((hg.removeRecv h).allot hroom.le allocated) hbound _
  | receiveWindow receiveWindow => exact hg.resized hbound receiveWindow
  | maxConcurrent dir _ n => exact hg.allot (Accounts.le_update_add a.maxRemote dir n) _
  | accepted | wrote | finished | reset => exact { hg with }
  | _ => exact hg

theorem Heard.grants (h : Heard a payloadLen frame a')
    (hordered : Ordered a) (hg : Grants a granted) (hbound : a.sentMaxData < 2 ^ 60) :
    Grants a' granted := by
  cases h with
  | stream frame _ _ h =>
    have hingested : ∀ recv, a.recv frame.id = some recv →
        Grants (ingested a frame payloadLen recv) granted := by
      intro recv h
      obtain ⟨-, hread⟩ := ingested_ordered (hordered _ recv h) frame payloadLen
      have hset : Grants (a.setRecv frame.id (recv.ingested frame payloadLen)) granted :=
        hg.setRecv h rfl hread.ge
      exact { hset with }
    cases h with
    | dropped => exact hg
    | buffered recv h => exact (hingested recv h).announce _
    | discarded recv h => exact (hingested recv h).credit hbound _
    | closed recv h _ _ _ _ _ allocated hroom =>
      have hsome : (ingested a frame payloadLen recv).recv frame.id =
          some (recv.ingested frame payloadLen) := update_self _ _ _
      exact Grants.credit (((hingested recv h).removeRecv hsome).allot hroom.le allocated) hbound _
  | resetStream id errorCode finalOffset _ _ h =>
    cases h with
    | redundant => exact hg
    | reset recv h =>
      have hset : Grants (a.setRecv id (resetHalf recv errorCode finalOffset)) granted :=
        hg.setRecv h rfl le_rfl
      refine (hset.announce id).settle ?_ recv finalOffset
      rw [sentMaxData_announce]
      exact hbound
    | closed recv h _ _ _ _ allocated hroom =>
      refine (((hg.removeRecv h).allot hroom.le allocated).announce id).settle ?_ recv finalOffset
      rw [sentMaxData_announce]
      exact hbound
  | stopSending id => exact hg.announce id
  | maxStreamData id limit half =>
    have hset : Grants (a.setSend id (raise half limit)) granted :=
      { hg with }
    exact hset.announce id
  | maxStreamDataClosed id => exact hg.announce id
  | maxData | maxStreams => exact { hg with }
  | _ => exact hg

theorem Fate.grants (h : Fate a a') (hg : Grants a granted) : Grants a' granted := by
  cases h with
  | same => exact hg
  | moved => exact { hg with }
  | @freed id _ _ _ _ hroom =>
    have hremoved : Grants (a.removeSend id) granted := { hg with }
    exact hremoved.allot hroom.le _

theorem Emits.grants (h : Emits q a frame a') (hg : Grants a granted) :
    ∃ granted', Grants a' granted' ∧ (offer a granted).Grows (offer a' granted') ∧
      Within (offer a' granted') frame := by
  cases h with
  | stream =>
    exact ⟨granted, { hg with }, .refl _, trivial⟩
  | maxData =>
    refine ⟨granted, ⟨Nat.max_le.mpr ⟨hg.maxData, Nat.min_le_left _ _⟩, hg.streams, hg.each⟩,
      ⟨Nat.le_max_left _ _, fun _ => le_rfl, fun _ => le_rfl⟩, Nat.le_max_right _ _⟩
  | maxStreamData id recv h =>
    obtain ⟨hgranted, hle, hdir⟩ := entry hg.each id recv h
    let limit := recv.assembler.bytesRead + a.streamReceiveWindow
    have hrecord : (recv.recordSentMaxStreamData limit).sentMaxStreamData = limit ∧
        (recv.recordSentMaxStreamData limit).assembler = recv.assembler := by
      unfold Recv.recordSentMaxStreamData
      split_ifs with hlt
      · exact ⟨rfl, rfl⟩
      · exact ⟨hle.antisymm (not_lt.mp hlt), rfl⟩
    have hgrows : ∀ j, granted j ≤ update granted id limit j := by
      intro j
      rcases eq_or_ne j id with rfl | hne
      · rw [update_self]
        exact hgranted.trans hle
      · rw [update_of_ne hne]
    refine ⟨update granted id limit, ⟨hg.maxData, hg.streams, ?_⟩,
      ⟨le_rfl, fun _ => le_rfl, hgrows⟩, ?_⟩
    · refine set hg.each (by simp [h]) (fun j hj hnew => ?_) (fun j hj y hy => ?_) ?_
      · rw [update_of_ne hj]
        exact hnew
      · rw [update_of_ne hj]
        exact hy
      · rw [update_self, hrecord.1, hrecord.2]
        exact ⟨le_rfl, le_rfl, hdir⟩
    · exact (update_self (β := fun _ => Nat) id limit granted).ge
  | maxStreams dir =>
    have hmax : ∀ d, update a.sentMaxRemote dir (a.maxRemote dir) d ≤ a.maxRemote d ∧
        a.sentMaxRemote d ≤ update a.sentMaxRemote dir (a.maxRemote dir) d := by
      intro d
      rcases eq_or_ne d dir with rfl | hne
      · rw [update_self]
        exact ⟨le_rfl, hg.streams d⟩
      · rw [update_of_ne hne]
        exact ⟨hg.streams d, le_rfl⟩
    exact ⟨granted, ⟨hg.maxData, fun d => (hmax d).1, hg.each⟩,
      ⟨le_rfl, fun d => (hmax d).2, fun _ => le_rfl⟩,
      (update_self (β := fun _ => Nat) dir _ _).ge⟩
  | _ => exact ⟨granted, hg, .refl _, trivial⟩

end Receiver

section Counts

structure Counts (a : Accounts) (l : Ledger) (peer : Log) : Prop where
  total : a.dataRecvd = l.received.total
  le : ∀ id, l.received.count id ≤ (peer.written id).length

/-- All that the peer has written is at most `bound` bytes. -/
def Fits (peer : Log) (bound : Nat) : Prop :=
  ∀ t : Tally StreamId, (∀ id, t.count id ≤ (peer.written id).length) → t.total ≤ bound

variable {a a' : Accounts} {q q' : Retransmits} {l : Ledger} {peer peer' : Log} {id : StreamId}

theorem Counts.mono (h : Counts a l peer) (hpeer : Extends peer peer') : Counts a l peer' :=
  ⟨h.total, fun id => (h.le id).trans (hpeer.isPrefix id).length_le⟩

theorem Counts.congr (h : Counts a l peer) (hrecvd : a'.dataRecvd = a.dataRecvd) :
    Counts a' l peer :=
  ⟨hrecvd.trans h.total, h.le⟩

theorem Counts.put (h : Counts a l peer) {received : Nat}
    (hle : received ≤ (peer.written id).length)
    (hrecvd : a'.dataRecvd + l.received.count id = a.dataRecvd + received) (consumed : Nat) :
    Counts a' (l.put id received consumed) peer := by
  have hset := l.received.total_set id received
  have htotal := h.total
  refine ⟨?_, fun j => ?_⟩
  · simp only [Ledger.put]
    omega
  · rcases eq_or_ne j id with rfl | hne
    · simpa [Ledger.put] using hle
    · simp only [Ledger.put, Tally.set_count_of_ne _ hne]
      exact h.le j

theorem Counts.put_same (h : Counts a l peer) (hrecvd : a'.dataRecvd = a.dataRecvd)
    (consumed : Nat) : Counts a' (l.put id (l.received.count id) consumed) peer :=
  h.put (h.le id) (by rw [hrecvd]) consumed

theorem dataRecvd_credit (a : Accounts) (n : Nat) : (a.credit n).dataRecvd = a.dataRecvd := by
  unfold Accounts.credit
  split_ifs <;> rfl

theorem dataRecvd_announce (a : Accounts) (id : StreamId) :
    (a.announce id).dataRecvd = a.dataRecvd := by
  unfold Accounts.announce
  split_ifs <;> rfl

theorem Called.counts (h : Called a q c r a' q') (hc : Counts a l peer) :
    Counts a' (l.called c r) peer := by
  cases h with
  | readFailed => exact hc.put_same rfl _
  | read | readUp | stopped | stoppedUp =>
    refine Counts.put_same hc ?_ _
    exact dataRecvd_credit _ _
  | receiveWindow =>
    unfold resized
    split_ifs <;> exact hc.congr rfl
  | _ => exact hc.congr rfl

/-- What arrives within the offer does not overflow the counter. -/
theorem Counts.arrive (h : Counts a l peer) {received : Nat} (hbound : bound < 2 ^ 60)
    (hfits : Fits peer bound)
    (hle : received ≤ (peer.written id).length) {stop : Nat} (hstop : l.received.count id = stop)
    (hgrows : stop ≤ received) :
    (a.dataRecvd + (received - stop)).min (2 ^ 64 - 1) + l.received.count id =
      a.dataRecvd + received := by
  have hset := l.received.total_set id received
  have htotal := h.total
  have hsum : (l.received.set id received).total ≤ bound := by
    refine hfits _ fun j => ?_
    rcases eq_or_ne j id with rfl | hne
    · rw [Tally.set_count_self]
      exact hle
    · rw [Tally.set_count_of_ne _ hne]
      exact h.le j
  have hmin : (a.dataRecvd + (received - stop)).min (2 ^ 64 - 1) =
      a.dataRecvd + (received - stop) :=
    Nat.min_eq_left (by omega)
  omega

theorem Received.counts {frame : StreamFrame} (h : Received a frame payloadLen a')
    (hh : Halves a l) (hc : Counts a l peer) (hframe : Truthful peer (.stream frame))
    (hbound : bound < 2 ^ 60) (hfits : Fits peer bound) :
    Counts a' (l.heard a.recv (.stream frame)) peer := by
  have hingested : ∀ recv, a.recv frame.id = some recv → recv.isReceiving = true →
      a'.dataRecvd = (ingested a frame payloadLen recv).dataRecvd →
      Counts a' (l.heard a.recv (.stream frame)) peer := by
    intro recv h hreceiving hrecvd
    rw [Ledger.heard_stream h hreceiving]
    have hstop := (hh.entry h).receiving hreceiving
    have hle : (l.received.count frame.id).max (frame.offset + frame.data.length) ≤
        (peer.written frame.id).length := Nat.max_le.mpr ⟨hc.le _, hframe.2.1⟩
    refine hc.put hle ?_ _
    have harrive := hc.arrive hbound hfits hle hstop (hstop ▸ Nat.le_max_left _ _)
    rw [hrecvd]
    have hnew : (l.received.count frame.id).max (frame.offset + frame.data.length) - recv.stop =
        frame.offset + frame.data.length - recv.stop := by
      change max _ _ - _ = _
      omega
    rw [hnew] at harrive
    exact harrive
  cases h with
  | dropped h =>
    rw [Ledger.heard_ignored (.stream frame) h]
    exact hc
  | buffered recv h hreceiving => exact hingested recv h hreceiving (dataRecvd_announce _ _)
  | discarded recv h hreceiving | closed recv h hreceiving =>
    exact hingested recv h hreceiving (dataRecvd_credit _ _)

theorem ReceivedReset.counts {errorCode finalOffset : Nat}
    (h : ReceivedReset a id errorCode finalOffset a') (hh : Halves a l) (hc : Counts a l peer)
    (hframe : Truthful peer (.resetStream id errorCode finalOffset)) (hbound : bound < 2 ^ 60)
    (hfits : Fits peer bound) :
    Counts a' (l.heard a.recv (.resetStream id errorCode finalOffset)) peer := by
  have hsettled : ∀ recv b, a.recv id = some recv → recv.isReceiving = true →
      b.dataRecvd = a.dataRecvd → Counts (settle b recv finalOffset)
        (l.heard a.recv (.resetStream id errorCode finalOffset)) peer := by
    intro recv b h hreceiving hrecvd
    rw [Ledger.heard_reset h hreceiving]
    have hentry := hh.entry h
    have hstop := hentry.receiving hreceiving
    have hread := hentry.read_le
    have hlength := hframe.2
    have hle := hc.le id
    have hmax : (l.received.count id).max finalOffset = finalOffset :=
      Nat.max_eq_right (hlength ▸ hle)
    rw [hmax]
    refine hc.put hlength.le ?_ _
    unfold FrameAccounts.settle
    split_ifs with hall
    · have hwrap : StreamsState.wrappingSub finalOffset recv.stop = finalOffset - recv.stop :=
        if_pos (by omega)
      rw [dataRecvd_credit, hrecvd, hwrap]
      exact hc.arrive hbound hfits hlength.le hstop (by omega)
    · -- All was read, and with it all has arrived.
      omega
  cases h with
  | redundant h =>
    rw [Ledger.heard_ignored (.resetStream id errorCode finalOffset) h]
    exact hc
  | reset recv h hreceiving | closed recv h hreceiving =>
    exact hsettled recv _ h hreceiving (dataRecvd_announce _ _)

theorem Heard.counts (h : Heard a payloadLen frame a')
    (hh : Halves a l) (hc : Counts a l peer) (hframe : Truthful peer frame)
    (hbound : bound < 2 ^ 60)
    (hfits : Fits peer bound) :
    Counts a' (l.heard a.recv frame) peer := by
  cases h with
  | stream _ _ _ h => exact Received.counts h hh hc hframe hbound hfits
  | resetStream _ _ _ _ _ h =>
    exact ReceivedReset.counts h hh hc hframe hbound hfits
  | stopSending id => exact hc.congr (dataRecvd_announce a id)
  | maxStreamData id => exact hc.congr (dataRecvd_announce _ id)
  | maxStreamDataClosed id => exact hc.congr (dataRecvd_announce a id)
  | _ => exact hc.congr rfl

theorem Fate.counts (h : Fate a a') (hc : Counts a l peer) : Counts a' l peer := by
  cases h <;> exact hc.congr rfl

end Counts

end Quac.StreamLimits
