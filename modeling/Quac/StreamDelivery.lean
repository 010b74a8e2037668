import Quac.SendContents
import Quac.StreamHalves
import Quac.StreamLink

/-!
Streams are reliable and in order: whatever the network does, the bytes read from a
stream are the first of those that were written to it, and the end of a stream is read
only once all of them are.
-/

namespace Quac.StreamDelivery

open BufferedBytes CallAccounts FrameAccounts Identifiers Lib.Registry Lib.Transition PartySteps
open Function
open Reassembly RecvHalf SendContents StreamAccess StreamAccounts StreamHalves
open StreamLink StreamParty StreamTransmit Streams TransmitAccounts List

variable {written bytes : Bytes} {log : Log} {c : Call} {r : Reply}

def Wrote (written : Bytes) (n : Nat) (byte : UInt8) : Prop :=
  written[n]? = some byte

variable {frame : StreamsFrame}

def Sealed (log : Log) (id : StreamId) : Prop :=
  log.finished id = true ∨ log.reset id = true

structure Extends (log log' : Log) : Prop where
  isPrefix : ∀ id, log.written id <+: log'.written id
  finished : ∀ id, log.finished id = true → log'.finished id = true
  reset : ∀ id, log.reset id = true → log'.reset id = true
  sealed : ∀ id, Sealed log id → log'.written id = log.written id

theorem extends_refl (log : Log) : Extends log log :=
  ⟨fun _ => prefix_refl _, fun _ h => h, fun _ h => h, fun _ _ => rfl⟩

theorem Wrote.of_isPrefix {written' : Bytes} (h : written <+: written') {n : Nat}
    {byte : UInt8} (hn : Wrote written n byte) : Wrote written' n byte := by
  obtain ⟨_, rfl⟩ := h
  have hlt := (List.getElem?_eq_some_iff.mp hn).1
  unfold Wrote at hn ⊢
  rw [getElem?_append_left hlt]
  exact hn

/-- What a frame on its way says agrees with the log of its sender. -/
def Truthful (log : Log) : StreamsFrame → Prop
  | .stream frame =>
    Places (Wrote (log.written frame.id)) frame.offset frame.data ∧
      frame.offset + frame.data.length ≤ (log.written frame.id).length ∧
      (frame.fin = true → log.finished frame.id = true ∧
        frame.offset + frame.data.length = (log.written frame.id).length)
  | .resetStream id _ finalOffset =>
    log.reset id = true ∧ finalOffset = (log.written id).length
  | _ => True

theorem Truthful.mono {log' : Log} (h : Extends log log')
    (hframe : Truthful log frame) : Truthful log' frame := by
  cases frame with
  | stream frame =>
    obtain ⟨hplaces, hle, hfin⟩ := hframe
    have hpre := h.isPrefix frame.id
    refine ⟨fun i byte hi => (hplaces i byte hi).of_isPrefix hpre,
      le_trans hle hpre.length_le, fun hend => ?_⟩
    obtain ⟨hfinished, hend⟩ := hfin hend
    exact ⟨h.finished _ hfinished, by rw [h.sealed _ (.inl hfinished), hend]⟩
  | resetStream id =>
    obtain ⟨hreset, hfinal⟩ := hframe
    exact ⟨h.reset id hreset, by rw [h.sealed id (.inr hreset), hfinal]⟩
  | _ => exact trivial

section Sender

structure Sending (half : Outgoing) (written : Bytes) (finished reset : Bool) : Prop where
  carries : Carries half.buffer written
  ready : half.state = .ready → finished = false ∧ reset = false
  dataSent : Outgoing.isDataSent half = true → finished = true

theorem sending_new (maxData : Nat) : Sending (.new maxData) [] false false :=
  ⟨carries_new, fun _ => ⟨rfl, rfl⟩, fun h => (by cases h)⟩

def Sender (a : Accounts) (log : Log) : Prop :=
  EachSend a (fun id => log.written id = [] ∧ log.finished id = false ∧ log.reset id = false)
    fun id half => Sending half (log.written id) (log.finished id) (log.reset id)

variable {a a' : Accounts} {q q' : Retransmits} {log log' : Log} {id : StreamId}
  {half half' : Outgoing}

theorem Sender.sending (h : Sender a log) (hsend : a.send id = some half) :
    Sending half (log.written id) (log.finished id) (log.reset id) :=
  Each.entry h id half hsend

theorem sending_fresh (maxData : StreamId → Nat) (id : StreamId)
    (h : log.written id = [] ∧ log.finished id = false ∧ log.reset id = false) :
    Sending (.new (maxData id)) (log.written id) (log.finished id) (log.reset id) := by
  rw [h.1, h.2.1, h.2.2]
  exact sending_new _

theorem Sender.setSend (h : Sender a log) (hsend : a.send id = some half)
    (hhalf : Sending half' (log.written id) (log.finished id) (log.reset id)) :
    Sender (a.setSend id half') log :=
  Each.set h (by simp [hsend]) (fun _ _ h => h) (fun _ _ _ h => h) hhalf

theorem Sender.change (h : Sender a log) (hsend : a.send id = some half)
    (hwritten : ∀ j, j ≠ id → log'.written j = log.written j)
    (hfinished : ∀ j, j ≠ id → log'.finished j = log.finished j)
    (hreset : ∀ j, j ≠ id → log'.reset j = log.reset j)
    (hhalf : Sending half' (log'.written id) (log'.finished id) (log'.reset id)) :
    Sender (a.setSend id half') log' := by
  refine Each.set h (by simp [hsend]) (fun j hj hnew => ?_) (fun j hj y hy => ?_) hhalf
  · rw [hwritten j hj, hfinished j hj, hreset j hj]
    exact hnew
  · rw [hwritten j hj, hfinished j hj, hreset j hj]
    exact hy

theorem Sender.rests (h : Sender a log) (hrests : Rests a a') : Sender a' log :=
  EachSend.rests h hrests fun id _ => sending_fresh _ id

theorem Sender.allot (h : Sender a log) {maxRemote : Dir → Nat}
    (hle : ∀ dir, a.maxRemote dir ≤ maxRemote dir) (allocatedRemoteCount : Dir → Nat) :
    Sender (a.allot maxRemote allocatedRemoteCount) log :=
  EachSend.allot h (fun id _ => sending_fresh _ id) hle

theorem Sender.removeSend (h : Sender a log) (hsend : a.send id = some half) :
    Sender (a.removeSend id) log :=
  Each.erase h (by simp [hsend]) (fun _ _ h => h) fun _ _ _ h => h

theorem Sending.write {finished reset : Bool}
    (h : Sending half written finished reset) (data : Bytes) :
    Sending (half.write data) (written ++ data) finished reset := by
  unfold Outgoing.write
  split_ifs with hempty
  · rw [isEmpty_iff.mp hempty, append_nil]
    exact h
  · exact ⟨h.carries.write data, h.ready, h.dataSent⟩

theorem Sender.write (hs : Sender a log) {data : Bytes} {n : Nat} (h : a.send id = some half)
    (hready : half.state = .ready) :
    Sender (a.setSend id (half.write (data.take n)))
      (log.called (.write id data) (.wrote (.ok n))) ∧
      Extends log (log.called (.write id data) (.wrote (.ok n))) := by
  have hne : ∀ j, j ≠ id → update log.written id (log.written id ++ data.take n) j =
      log.written j := fun j hj => update_of_ne hj _ _
  have hsame : update log.written id (log.written id ++ data.take n) id =
      log.written id ++ data.take n := update_self _ _ _
  refine ⟨hs.change h hne (fun _ _ => rfl) (fun _ _ => rfl) ?_, fun j => ?_, fun _ h => h,
    fun _ h => h, fun j hj => hne j ?_⟩
  · simp only [Log.called, hsame]
    exact (hs.sending h).write _
  · simp only [Log.called]
    rcases eq_or_ne j id with rfl | hj
    · rw [hsame]
      exact prefix_append _ _
    · exact (hne j hj).symm ▸ prefix_refl _
  · rintro rfl
    obtain ⟨hfinished, hreset⟩ := (hs.sending h).ready hready
    rcases hj with hj | hj
    · cases hfinished.symm.trans hj
    · cases hreset.symm.trans hj

theorem Sender.finish (hs : Sender a log) (h : a.send id = some half) :
    Sender (a.setSend id { half with state := .dataSent false })
        (log.called (.finish id) (.finished (.ok ()))) ∧
      Extends log (log.called (.finish id) (.finished (.ok ()))) := by
  have hhalf := hs.sending h
  refine ⟨hs.change h (fun _ _ => rfl) (fun j hj => update_of_ne hj _ _) (fun _ _ => rfl) ?_,
    fun _ => prefix_refl _, fun j hj => ?_, fun _ h => h, fun _ _ => rfl⟩
  · simp only [Log.called, update_self]
    exact ⟨hhalf.carries, fun h => (by cases h), fun _ => rfl⟩
  · simp only [Log.called, update_apply]
    split_ifs
    · rfl
    · exact hj

theorem Sender.reset (hs : Sender a log) (h : a.send id = some half) (errorCode : Nat) :
    Sender (a.setSend id { half with state := .resetSent })
        (log.called (.reset id errorCode) (.reset true)) ∧
      Extends log (log.called (.reset id errorCode) (.reset true)) := by
  have hhalf := hs.sending h
  refine ⟨hs.change h (fun _ _ => rfl) (fun _ _ => rfl) (fun j hj => update_of_ne hj _ _) ?_,
    fun _ => prefix_refl _, fun _ h => h, fun j hj => ?_, fun _ _ => rfl⟩
  · exact ⟨hhalf.carries, fun h => (by cases h), fun h => (by cases h)⟩
  · simp only [Log.called, update_apply]
    split_ifs
    · rfl
    · exact hj

/-- The log of a side that was called grows, and its sending halves stay in step with it. -/
theorem Called.sender (h : Called a q c r a' q') (hs : Sender a log) :
    Sender a' (log.called c r) ∧ Extends log (log.called c r) := by
  have hread : ∀ id bytes ends, Extends log { log with
      read := update log.read id bytes, ended := update log.ended id ends } :=
    fun _ _ _ => ⟨fun _ => prefix_refl _, fun _ h => h, fun _ h => h, fun _ _ => rfl⟩
  have hrests := Called.rests h
  cases h with
  | opened dir =>
    exact ⟨EachSend.openLocal hs (fun id _ => sending_fresh _ id) dir, extends_refl log⟩
  | wrote _ _ _ _ h hready => exact hs.write h hready
  | finished _ _ h => exact hs.finish h
  | reset _ errorCode _ h => exact hs.reset h errorCode
  | readFailed => exact ⟨hs, hread _ _ _⟩
  | read | readUp => exact ⟨hs.rests (hrests trivial), hread _ _ _⟩
  | stopped | stoppedUp | receiveWindow | maxConcurrent =>
    exact ⟨hs.rests (hrests trivial), extends_refl log⟩
  | _ => exact ⟨hs, extends_refl log⟩

theorem Heard.sender {payloadLen : Nat} (h : Heard a payloadLen frame a')
    (hs : Sender a log) : Sender a' log := by
  cases h with
  | stream _ _ _ h => exact hs.rests (Received.rests h)
  | resetStream _ _ _ _ _ h => exact hs.rests (ReceivedReset.rests h)
  | stopSending id => exact EachSend.same hs (sameStreams_announce a id)
  | maxStreamData id limit half h =>
    have hhalf := hs.sending h
    have hraised : Sending (raise half limit) (log.written id) (log.finished id)
        (log.reset id) := by
      unfold raise
      split_ifs
      · exact hhalf
      · exact { hhalf with }
    exact EachSend.same (hs.setSend h hraised) (sameStreams_announce _ id)
  | maxStreamDataClosed id => exact EachSend.same hs (sameStreams_announce a id)
  | _ => exact hs

theorem Acked.sender (h : Acked a frame a') (hs : Sender a log)
    (hframe : Truthful log frame) : Sender a' log := by
  cases h with
  | ignored => exact hs
  | stream _ half h =>
    have hhalf := hs.sending h
    refine hs.setSend h ⟨hhalf.carries.ack hframe.2.1, fun hready => ?_, fun hdone => ?_⟩
    · unfold ackedHalf at hready
      split at hready
      · cases hready
      · exact hhalf.ready hready
    · apply hhalf.dataSent
      unfold ackedHalf Outgoing.isDataSent at hdone
      unfold Outgoing.isDataSent
      rcases hstate : half.state with _ | _ | _ <;> simp [hstate] at hdone ⊢
  | finished _ _ h _ _ _ allocated hroom =>
    exact (hs.removeSend h).allot hroom.le allocated
  | reset _ _ _ _ h _ _ allocated hroom =>
    exact (hs.removeSend h).allot hroom.le allocated

theorem Lost.sender (h : Lost a frame a') (hs : Sender a log)
    (hframe : Truthful log frame) : Sender a' log := by
  cases h with
  | ignored => exact hs
  | stream _ _ h =>
    have hhalf := hs.sending h
    exact hs.setSend h ⟨hhalf.carries.retransmit hframe.2.1, hhalf.ready, hhalf.dataSent⟩

theorem Emits.sender (h : Emits q a frame a') (hs : Sender a log)
    (hq : ∀ x ∈ q.resetStream, log.reset x.1 = true) : Sender a' log ∧ Truthful log frame := by
  cases h with
  | stream _ _ h _ _ start stop _ buffer hpoll =>
    have hhalf := hs.sending h
    obtain ⟨_, hstop, hbuffer⟩ := hhalf.carries.pollTransmit hpoll
    have hend : start + (buffer.copyRange (stop - start) start stop).length = stop := by omega
    refine ⟨hs.setSend h ⟨hbuffer, hhalf.ready, hhalf.dataSent⟩, hbuffer.copyRange _ _ _, ?_, ?_⟩
    · rw [hend]
      exact hstop
    · intro hfin
      rw [Bool.and_eq_true, beq_iff_eq] at hfin
      rw [hend, hfin.1]
      exact ⟨hhalf.dataSent hfin.2, hbuffer.offset⟩
  | resetStream _ _ _ h hqueued =>
    exact ⟨hs, hq _ hqueued, (hs.sending h).carries.offset⟩
  | _ => exact ⟨hs, trivial⟩

theorem Sends.sender {frames : List StreamsFrame} (h : Sends q a frames a') (hs : Sender a log)
    (hq : ∀ x ∈ q.resetStream, log.reset x.1 = true) :
    Sender a' log ∧ ∀ frame ∈ frames, Truthful log frame := by
  induction h with
  | nil => exact ⟨hs, fun _ h => (not_mem_nil h).elim⟩
  | cons h _ ih =>
    obtain ⟨hs, hframe⟩ := Emits.sender h hs hq
    obtain ⟨hs, hframes⟩ := ih hs
    refine ⟨hs, fun frame hmem => ?_⟩
    rcases mem_cons.mp hmem with rfl | hmem
    · exact hframe
    · exact hframes frame hmem

end Sender

section Receiver

structure Reading (recv : Recv) (read : Bytes) (peer : Log) (id : StreamId) : Prop where
  holds : Holds (Wrote (peer.written id)) recv.assembler
  bytesRead : read.length = recv.assembler.bytesRead
  size : ∀ n, recv.state = .recv (some n) → peer.finished id = true ∧ n = (peer.written id).length
  reset : ∀ n errorCode, recv.state = .resetRecvd n errorCode →
    peer.reset id = true ∧ n = (peer.written id).length

theorem Reading.final {recv : Recv} {read : Bytes} {peer : Log} {id : StreamId} {final : Nat}
    (h : Reading recv read peer id) (hfinal : final ∈ recv.finalOffset) :
    final = (peer.written id).length := by
  unfold Recv.finalOffset at hfinal
  split at hfinal
  · rename_i hstate
    rw [Option.mem_def.mp hfinal] at hstate
    exact (h.size final hstate).2
  · rename_i hstate
    cases Option.mem_def.mp hfinal
    exact (h.reset final _ hstate).2

theorem reading_new (window : Nat) (peer : Log) (id : StreamId) :
    Reading (.new window) [] peer id :=
  ⟨holds_new, rfl, fun _ h => (by cases h), fun _ _ h => (by cases h)⟩

structure Receiver (a : Accounts) (log peer : Log) : Prop where
  isPrefix : ∀ id, log.read id <+: peer.written id
  ended : ∀ id, log.ended id = true → peer.finished id = true ∧ log.read id = peer.written id
  each : EachRecv a (fun id => log.read id = [])
    fun id recv => Reading recv (log.read id) peer id

variable {a a' : Accounts} {q q' : Retransmits} {log log' peer peer' : Log} {id : StreamId}
  {recv recv' : Recv}

theorem Reading.mono {read : Bytes} (h : Reading recv read peer id) (hpeer : Extends peer peer') :
    Reading recv read peer' id := by
  refine ⟨h.holds.mono fun n byte hn => hn.of_isPrefix (hpeer.isPrefix id), h.bytesRead,
    fun n hn => ?_, fun n errorCode hn => ?_⟩
  · obtain ⟨hfinished, hn⟩ := h.size n hn
    exact ⟨hpeer.finished id hfinished, by rw [hn, hpeer.sealed id (.inl hfinished)]⟩
  · obtain ⟨hreset, hn⟩ := h.reset n errorCode hn
    exact ⟨hpeer.reset id hreset, by rw [hn, hpeer.sealed id (.inr hreset)]⟩

theorem Receiver.mono (h : Receiver a log peer) (hpeer : Extends peer peer') :
    Receiver a log peer' := by
  refine ⟨fun id => (h.isPrefix id).trans (hpeer.isPrefix id), fun id hended => ?_,
    Each.mono h.each (fun _ h => h) fun id recv hrecv => hrecv.mono hpeer⟩
  obtain ⟨hfinished, hread⟩ := h.ended id hended
  exact ⟨hpeer.finished id hfinished, by rw [hread, hpeer.sealed id (.inl hfinished)]⟩

theorem Receiver.reading (h : Receiver a log peer) (hrecv : a.recv id = some recv) :
    Reading recv (log.read id) peer id :=
  Each.entry h.each id recv hrecv

theorem Receiver.keeps (h : Receiver a log peer) (hkeeps : KeepsRecv a a') : Receiver a' log peer :=
  ⟨h.isPrefix, h.ended, hkeeps.each (fun _ _ hread => hread ▸ reading_new _ _ _) h.each⟩

theorem Receiver.setRecv (h : Receiver a log peer) (hrecv : a.recv id = some recv)
    (hreading : Reading recv' (log.read id) peer id) :
    Receiver (a.setRecv id recv') log peer :=
  { h with each := Each.set h.each (by simp [hrecv]) (fun _ _ h => h) (fun _ _ _ h => h) hreading }

theorem Receiver.removeRecv (h : Receiver a log peer) (hrecv : a.recv id = some recv) :
    Receiver (a.removeRecv id) log peer :=
  ⟨h.isPrefix, h.ended, Each.erase h.each (by simp [hrecv]) (fun _ _ h => h) fun _ _ _ h => h⟩

/-- The bytes that follow what was read are those that follow in the stream. -/
theorem prefix_append_of_places {read : Bytes} (h : read <+: written)
    (hbytes : Places (Wrote written) read.length bytes) : read ++ bytes <+: written := by
  obtain ⟨_, rfl⟩ := h
  rw [prefix_append_right_inj, prefix_iff_getElem?]
  intro i hi
  have hbyte := hbytes i _ (getElem?_eq_getElem hi)
  unfold Wrote at hbyte
  rwa [getElem?_append_right (Nat.le_add_right _ _), Nat.add_sub_cancel_left] at hbyte

def Log.reads (log : Log) (id : StreamId) (bytes : Bytes) (ends : Bool) : Log :=
  { log with
    read := Function.update log.read id (log.read id ++ bytes)
    ended := Function.update log.ended id (log.ended id || ends) }

theorem Receiver.reads (h : Receiver a log peer) (hrecv : a.recv id = some recv)
    {assembler : Assembler} (hreads : Reads recv.assembler bytes assembler) :
    log.read id ++ bytes <+: peer.written id ∧
      Reading { recv with assembler } (log.read id ++ bytes) peer id := by
  have hreading := h.reading hrecv
  obtain ⟨hplaces, hholds⟩ := hreading.holds.reads hreads
  rw [← hreading.bytesRead] at hplaces
  refine ⟨prefix_append_of_places (h.isPrefix id) hplaces, hholds, ?_, hreading.size,
    hreading.reset⟩
  rw [length_append, hreading.bytesRead, hreads.bytesRead.1]

theorem Receiver.note (h : Receiver a log peer) (hrecv : a.recv id = some recv) {ends : Bool}
    (hpre : log.read id ++ bytes <+: peer.written id)
    (hends : ends = true → peer.finished id = true ∧ log.read id ++ bytes = peer.written id)
    {entry : Option Recv}
    (hentry : ∀ recv', entry = some recv' → Reading recv' (log.read id ++ bytes) peer id) :
    Receiver { a with recv := Function.update a.recv id entry } (Log.reads log id bytes ends)
      peer := by
  refine ⟨fun j => ?_, fun j hj => ?_, Each.put h.each (by simp [hrecv]) (fun j hj hnew => ?_)
    (fun j hj y hy => ?_) fun recv' h' => ?_⟩
  · rcases eq_or_ne j id with rfl | hne
    · simpa only [Log.reads, update_self] using hpre
    · simpa only [Log.reads, update_of_ne hne] using h.isPrefix j
  · rcases eq_or_ne j id with rfl | hne
    · simp only [Log.reads, update_self, Bool.or_eq_true] at hj ⊢
      rcases hj with hj | hj
      · -- All was read before, and there is nothing behind it.
        obtain ⟨hfinished, hall⟩ := h.ended j hj
        refine ⟨hfinished, hpre.eq_of_length_le ?_⟩
        rw [length_append, hall]
        exact Nat.le_add_right _ _
      · exact hends hj
    · simp only [Log.reads, update_of_ne hne] at hj ⊢
      exact h.ended j hj
  · simpa only [Log.reads, update_of_ne hj] using hnew
  · simpa only [Log.reads, update_of_ne hj] using hy
  · simpa only [Log.reads, update_self] using hentry recv' h'

theorem Called.receiver (h : Called a q c r a' q')
    (hr : Receiver a log peer) : Receiver a' (log.called c r) peer := by
  have hkeeps := Called.keepsRecv h
  cases h with
  | readFailed id maxLengths =>
    have hsame : log.called (.read id maxLengths) (.read []) = log := by
      simp [Log.called, readBytes, readsEnd]
    rw [hsame]
    exact hr
  | read _ _ _ _ _ h _ hreads hends =>
    obtain ⟨hpre, hreading⟩ := hr.reads h hreads
    have hnote := hr.note h hpre (fun hend => by cases hends.symm.trans hend)
      fun _ h => Option.some.inj h ▸ hreading
    exact hnote.keeps (keepsRecv_credit _ _)
  | readUp id _ _ _ _ h _ hreads hends _ _ hroom =>
    obtain ⟨hpre, hreading⟩ := hr.reads h hreads
    refine (hr.note h hpre (fun hend => ?_) (by simp)).keeps
      ((keepsRecv_allot hroom.le).same (sameStreams_credit _ _))
    rcases hends with ⟨-, hends⟩ | ⟨hstate, hread⟩
    · cases hends.symm.trans hend
    · obtain ⟨hfinished, hstop⟩ := hreading.size _ hstate
      refine ⟨hfinished, hpre.eq_of_length ?_⟩
      rw [hreading.bytesRead, ← hstop]
      exact hread
  | stopFailed => exact hr
  | stopped _ _ _ h =>
    have hreading := hr.reading h
    refine (hr.setRecv h ?_).keeps (keepsRecv_credit _ _)
    exact { hreading with holds := hreading.holds.clear }
  | stoppedUp _ _ _ h _ _ _ _ hroom =>
    exact (hr.removeRecv h).keeps ((keepsRecv_allot hroom.le).same (sameStreams_credit _ _))
  | wrote | finished | reset => exact { hr.keeps hkeeps with }
  | _ => exact hr.keeps hkeeps

theorem Reading.ingested {frame : StreamFrame} {read : Bytes} (h : Reading recv read peer frame.id)
    (hframe : Truthful peer (.stream frame)) (payloadLen : Nat) :
    Reading (recv.ingested frame payloadLen) read peer frame.id := by
  obtain ⟨hplaces, -, hfin⟩ := hframe
  unfold Recv.ingested
  refine ⟨?_, ?_, fun n hn => ?_, fun n errorCode hn => ?_⟩
  · dsimp only
    split_ifs
    · exact h.holds
    · exact h.holds.insert hplaces payloadLen
  · dsimp only
    rw [h.bytesRead]
    split_ifs
    · rfl
    · exact (Assembler.insert_ordered h.holds.ordered _ _ _).2.symm
  · dsimp only at hn
    split at hn
    · rename_i size hstate
      split_ifs at hn with hends
      · cases hn
        exact hfin (by simp only [Bool.and_eq_true] at hends; exact hends.1)
      · exact h.size n (hstate.trans hn)
    · exact h.size n hn
  · split at hn
    · split_ifs at hn
    · exact h.reset n errorCode hn

theorem Heard.receiver {payloadLen : Nat}
    (hheard : Heard a payloadLen frame a') (hr : Receiver a log peer)
    (hframe : Truthful peer frame) : Receiver a' log peer := by
  cases Heard.recv hheard with
  | kept _ _ _ hkeeps => exact hr.keeps hkeeps
  | ingested _ _ _ h _ _ _ hkeeps =>
    exact (hr.setRecv h ((hr.reading h).ingested hframe payloadLen)).keeps hkeeps
  | reset _ _ _ _ _ h _ _ _ hkeeps =>
    have hreading := hr.reading h
    refine (hr.setRecv h ?_).keeps hkeeps
    refine ⟨hreading.holds.clear, hreading.bytesRead, fun _ h => (by cases h), fun n code hn => ?_⟩
    cases hn
    exact hframe
  | closed _ _ _ h _ _ hkeeps => exact (hr.removeRecv h).keeps hkeeps
  | resetClosed _ _ _ _ _ h _ hkeeps =>
    exact (hr.removeRecv h).keeps hkeeps

theorem Sends.receiver {frames : List StreamsFrame} (h : Sends q a frames a')
    (hr : Receiver a log peer) : Receiver a' log peer := by
  induction h with
  | nil => exact hr
  | cons h _ ih =>
    apply ih
    cases h with
    | maxStreamData _ _ h =>
      have hreading := hr.reading h
      apply hr.setRecv h
      unfold Recv.recordSentMaxStreamData
      split_ifs
      · exact { hreading with }
      · exact hreading
    | stream | maxData | maxStreams => exact { hr with }
    | _ => exact hr

end Receiver

section Run

structure Faithful (s : State) (log peer : Log) : Prop where
  tidy : Tidy s.party
  sender : Sender (accounts s.party.streams) log
  resets : ∀ x ∈ s.party.pending.resetStream, log.reset x.1 = true
  sent : ∀ frame ∈ s.sent, Truthful log frame
  receiver : Receiver (accounts s.party.streams) log peer

theorem Called.resets {a a' : Accounts} {q q' : Retransmits} (h : Called a q c r a' q')
    (hextends : Extends log (log.called c r))
    (hq : ∀ x ∈ q.resetStream, log.reset x.1 = true) :
    ∀ x ∈ q'.resetStream, (log.called c r).reset x.1 = true := by
  have hkept : ∀ x ∈ q.resetStream, (log.called c r).reset x.1 = true :=
    fun x hx => hextends.reset _ (hq x hx)
  cases h with
  | reset =>
    intro x hx
    rcases mem_append.mp hx with hx | hx
    · exact hkept x hx
    · rw [mem_singleton.mp hx]
      exact update_self _ _ _
  | read _ _ _ _ _ _ _ _ _ _ hq' =>
    obtain ⟨maxData, maxStreamId, maxStreamData, rfl, -⟩ := hq'
    exact hkept
  | readUp id maxLengths results recv assembler h hstopped hreads hends maxRemote allocated hroom
      q' hq' =>
      obtain ⟨_, _, _, rfl, -⟩ := hq'
      exact hkept
  | _ => exact hkept

/-- What one move does at the side that makes it. -/
theorem Faithful.step {s s' : State} {peer : Log} {m : Move} (h : Faithful s log peer)
    (hoffered : ∀ payloadLen frame, m = .receive payloadLen frame → Truthful peer frame)
    (hstep : step s m = some s') :
    Faithful s' (log.moved s m) peer ∧ Extends log (log.moved s m) := by
  obtain ⟨htidy, hsender, hresets, hsent, hreceiver⟩ := h
  obtain ⟨htidy', hdone⟩ := step_done htidy hstep
  cases hdone with
  | call hcalled =>
    obtain ⟨hsender', hextends⟩ := Called.sender hcalled hsender
    exact ⟨⟨htidy', hsender', Called.resets hcalled hextends hresets,
      fun frame hmem => (hsent frame hmem).mono hextends, Called.receiver hcalled hreceiver⟩,
      hextends⟩
  | receive _ hheard hpending =>
    obtain ⟨_, _, hq⟩ := hpending
    exact ⟨⟨htidy', Heard.sender hheard hsender, by rw [hq]; exact hresets, hsent,
      Heard.receiver hheard hreceiver (hoffered _ _ rfl)⟩, extends_refl log⟩
  | transmit _ hsends hwithin =>
    obtain ⟨hsender', hframes⟩ := Sends.sender hsends hsender hresets
    refine ⟨⟨htidy', hsender', fun x hx => hresets x (hwithin.resetStream x hx),
      fun frame hmem => ?_, Sends.receiver hsends hreceiver⟩, extends_refl log⟩
    exact (mem_append.mp hmem).elim (hsent frame) (hframes frame)
  | acked hmem hacked hq =>
    exact ⟨⟨htidy', Acked.sender hacked hsender (hsent _ hmem), by rw [hq]; exact hresets, hsent,
      hreceiver.keeps (Fate.keepsRecv hacked.fate)⟩, extends_refl log⟩
  | lost hmem hlost hrequeues =>
    refine ⟨⟨htidy', Lost.sender hlost hsender (hsent _ hmem), fun x hx => ?_, hsent,
      hreceiver.keeps (Fate.keepsRecv hlost.fate)⟩, extends_refl log⟩
    rcases hrequeues.resetStream x hx with hx | ⟨_, rfl⟩
    · exact hresets x hx
    · exact (hsent _ hmem).1

def Inv (s : (Side → State) × (Side → Log)) : Prop :=
  ∀ side, Faithful (s.1 side) (s.2 side) (s.2 side.peer)

theorem sender_of_begins {a : Accounts} (h : Begins a) : Sender a .empty :=
  Begins.eachSend h (fun _ => ⟨rfl, rfl, rfl⟩) fun _ _ => sending_new _

theorem receiver_of_begins {a : Accounts} (h : Begins a) : Receiver a .empty .empty :=
  ⟨fun _ => prefix_refl _, fun _ h => (by cases h),
    Begins.eachRecv h (fun _ => rfl) fun _ _ => reading_new _ _ _⟩

variable {s : (Side → State) × (Side → Log)}

theorem inv_initial (h : conversation.initial s) : Inv s := by
  obtain ⟨⟨config, hstart⟩, hempty⟩ := h
  intro side
  rw [hstart, hempty]
  obtain ⟨hfresh, heq⟩ := accounts_new side (config side).maxConcurrentUniStreams
    (config side).maxConcurrentBidiStreams (config side).sendWindow (config side).receiveWindow
    (config side).streamReceiveWindow (config side.peer).limits
  have hbegins := heq ▸ begins_initial _ _ _ _ _
  refine ⟨⟨hfresh, ?_⟩, ?_, fun _ h => (not_mem_nil h).elim,
    fun _ h => (not_mem_nil h).elim, ?_⟩
  · exact hbegins.ordered
  · exact sender_of_begins hbegins
  · exact receiver_of_begins hbegins

theorem inv_step {s' : (Side → State) × (Side → Log)} {move : Side × Move} (hs : Inv s)
    (h : conversation.step s move = some s') : Inv s' := by
  obtain ⟨side, m⟩ := move
  obtain ⟨hlink, hlog⟩ := System.observed_step_eq_some h
  obtain ⟨hoffered, t, hstep, heq⟩ := linkStep_eq_some hlink
  obtain ⟨l, _⟩ := s'
  subst heq hlog
  have hne : side.peer ≠ side := Accounts.peer_ne side
  have hdelivered : ∀ payloadLen frame, m = .receive payloadLen frame →
      Truthful (s.2 side.peer) frame := by
    rintro payloadLen frame rfl
    exact (hs side.peer).sent frame hoffered
  obtain ⟨hmoved, hextends⟩ := (hs side).step hdelivered hstep
  intro other
  rcases eq_or_eq_peer side other with rfl | rfl
  · simp only [Log.observe, update_self, update_of_ne hne]
    exact hmoved
  · simp only [Log.observe, update_self, update_of_ne hne, peer_peer]
    obtain ⟨htidy, hsender, hresets, hsent, hreceiver⟩ := hs side.peer
    rw [peer_peer] at hreceiver
    exact ⟨htidy, hsender, hresets, hsent, hreceiver.mono hextends⟩

end Run

/-- The bytes read from a stream are the first of those written to it at the other side,
and its end is read only if it was finished and all its bytes are read. -/
theorem delivered_in_order {s : (Side → State) × (Side → Log)} (hs : conversation.Reachable s)
    (side : Side) (id : StreamId) :
    (s.2 side).read id <+: (s.2 side.peer).written id ∧
      ((s.2 side).ended id = true → (s.2 side.peer).finished id = true ∧
        (s.2 side).read id = (s.2 side.peer).written id) := by
  obtain ⟨-, -, -, -, hreceiver⟩ :=
    System.Reachable.invariant (fun _ => inv_initial) (fun _ _ _ => inv_step) hs side
  exact ⟨hreceiver.isPrefix id, hreceiver.ended id⟩

/-- Three bytes arrive twice, after their first frame was lost. -/
theorem retransmitted_in_order : ∃ s, conversation.Reachable s ∧
    (s.2 .server).ended ⟨.client, .uni, 0⟩ = true ∧
    (s.2 .server).read ⟨.client, .uni, 0⟩ = [1, 2, 3] ∧
    (s.2 .server).read ⟨.client, .uni, 0⟩ = (s.2 .client).written ⟨.client, .uni, 0⟩ := by
  let id : StreamId := ⟨.client, .uni, 0⟩
  let frame : StreamsFrame := .stream ⟨id, 0, true, [1, 2, 3]⟩
  let space : PacketSpace := ⟨0, 100, true, []⟩
  have hrun : (conversation.run (start fun _ => ⟨1, 1, 100, 100, 100⟩, fun _ => .empty)
      [(.client, .call (.openStream .uni)), (.client, .call (.write id [1, 2, 3])),
        (.client, .call (.finish id)), (.client, .transmit space), (.client, .lost frame),
        (.client, .transmit space), (.server, .receive 10 frame), (.server, .receive 10 frame),
        (.server, .call (.read id [10, 10]))]).any (fun s =>
      (s.2 .server).ended id && (s.2 .server).read id == [1, 2, 3]) = true := by decide +kernel
  obtain ⟨s, hs, hcheck⟩ := (Option.any_eq_true _ _).mp hrun
  obtain ⟨hended, hread⟩ := Bool.and_eq_true_iff.mp hcheck
  rw [beq_iff_eq] at hread
  have hreach : conversation.Reachable s := .of_run (.initial ⟨⟨_, rfl⟩, rfl⟩) hs
  exact ⟨s, hreach, hended, hread, ((delivered_in_order hreach .server id).2 hended).2⟩

/-- All that is sent says what the user did, and the peer holds nothing else. -/
theorem received_authentic {s : (Side → State) × (Side → Log)} (hs : conversation.Reachable s)
    (side : Side) :
    (∀ frame ∈ (s.1 side).sent, Truthful (s.2 side) frame) ∧
      ∀ id recv, (s.1 side).party.streams.getRecv id = some recv →
        Reading recv ((s.2 side).read id) (s.2 side.peer) id := by
  obtain ⟨-, -, -, hsent, hreceiver⟩ :=
    System.Reachable.invariant (fun _ => inv_initial) (fun _ _ _ => inv_step) hs side
  exact ⟨hsent, fun id recv hrecv => hreceiver.reading hrecv⟩

theorem reset_authentic : ∃ s recv, conversation.Reachable s ∧
    (s.1 .server).party.streams.getRecv ⟨.client, .uni, 0⟩ = some recv ∧
    recv.state = .resetRecvd 3 7 ∧ (s.2 .client).reset ⟨.client, .uni, 0⟩ = true ∧
    3 = ((s.2 .client).written ⟨.client, .uni, 0⟩).length := by
  let id : StreamId := ⟨.client, .uni, 0⟩
  have hrun : (conversation.run (start fun _ => ⟨1, 1, 100, 100, 100⟩, fun _ => .empty)
      [(.client, .call (.openStream .uni)), (.client, .call (.write id [1, 2, 3])),
        (.client, .call (.reset id 7)), (.client, .transmit ⟨0, 100, true, []⟩),
        (.server, .receive 10 (.resetStream id 7 3))]).any (fun s =>
      ((s.1 .server).party.streams.getRecv id).any (·.state == .resetRecvd 3 7)) = true := by
    decide +kernel
  obtain ⟨s, hs, hany⟩ := (Option.any_eq_true _ _).mp hrun
  obtain ⟨recv, hrecv, hstate⟩ := (Option.any_eq_true _ _).mp hany
  rw [beq_iff_eq] at hstate
  have hreach : conversation.Reachable s := .of_run (.initial ⟨⟨_, rfl⟩, rfl⟩) hs
  exact ⟨s, recv, hreach, hrecv, hstate,
    ((received_authentic hreach .server).2 id recv hrecv).reset 3 7 hstate⟩

end Quac.StreamDelivery
