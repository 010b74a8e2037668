import Quac.CallAccounts
import Quac.FrameAccounts
import Quac.TransmitAccounts

/-!
What each move of one side does to the accounts of its streams and to the frames
it has queued.  Invariants over runs are proved from these cases.
-/

namespace Quac.PartySteps

open CallAccounts FrameAccounts Function Identifiers Reassembly RecvHalf SendHalf StreamAccess
open StreamAccounts StreamParty StreamTransmit Streams StreamsState TransmitAccounts TransmitShape
open Accounts Outgoing

variable {a a' : Accounts} {q : Retransmits} {p p' : Party} {payloadLen : Nat}

def Ordered (a : Accounts) : Prop :=
  ∀ id recv, a.recv id = some recv → recv.assembler.state = .ordered

section Ordered

variable {a a' : Accounts} {id : StreamId} {recv : Recv}

theorem Ordered.congr (h : Ordered a) (hrecv : a'.recv = a.recv) : Ordered a' := by
  intro id recv hid
  rw [hrecv] at hid
  exact h id recv hid

theorem Ordered.setRecv (h : Ordered a) (hrecv : recv.assembler.state = .ordered) :
    Ordered (a.setRecv id recv) := by
  intro j r hj
  rcases eq_or_ne j id with rfl | hne
  · simp only [Accounts.setRecv, update_self, Option.some.injEq] at hj
    rw [← hj]
    exact hrecv
  · simp only [Accounts.setRecv, update_of_ne hne] at hj
    exact h j r hj

theorem Ordered.removeRecv (h : Ordered a) (id : StreamId) : Ordered (a.removeRecv id) := by
  intro j r hj
  rcases eq_or_ne j id with rfl | hne
  · simp [Accounts.removeRecv] at hj
  · simp only [Accounts.removeRecv, update_of_ne hne] at hj
    exact h j r hj

theorem Ordered.allot (h : Ordered a) (maxRemote allocatedRemoteCount : Dir → Nat) :
    Ordered (a.allot maxRemote allocatedRemoteCount) := by
  intro j r hj
  simp only [Accounts.allot] at hj
  split_ifs at hj
  · cases hj
    rfl
  · exact h j r hj

theorem announce_recv (a : Accounts) (id : StreamId) : (a.announce id).recv = a.recv := by
  unfold announce
  split_ifs <;> rfl

theorem Ordered.credit (h : Ordered a) (credits : Nat) : Ordered (a.credit credits) := by
  unfold Accounts.credit
  split_ifs <;> exact h.congr rfl

theorem Ordered.announce (h : Ordered a) (id : StreamId) : Ordered (a.announce id) :=
  h.congr (announce_recv a id)

theorem Ordered.openLocal (h : Ordered a) (dir : Dir) : Ordered (a.openLocal dir) := by
  intro j r hj
  cases dir with
  | uni => exact h j r hj
  | bi =>
    simp only [Accounts.openLocal, update_apply] at hj
    split_ifs at hj
    · cases hj
      rfl
    · exact h j r hj

/-- The halves that a connection begins with are for the streams of the peer. -/
structure Begins (a : Accounts) : Prop where
  send : ∀ id half, a.send id = some half →
    ¬ a.Unborn id ∧ id.dir = .bi ∧ half = .new (a.maxSendData id)
  recv : ∀ id recv, a.recv id = some recv →
    ¬ a.Unborn id ∧ id.initiator ≠ a.side ∧ recv = .new a.streamReceiveWindow

theorem begins_initial (side : Side) (maxRemote : Dir → Nat)
    (receiveWindow streamReceiveWindow : Nat) (params : StreamsState.PeerLimits) :
    Begins (initialAccounts side maxRemote receiveWindow streamReceiveWindow params) := by
  have hborn : ∀ id : StreamId, id.initiator = side.peer → id.index < maxRemote id.dir →
      id.initiator ≠ side ∧ ¬ (initialAccounts side maxRemote receiveWindow streamReceiveWindow
        params).Unborn id := by
    intro id hpeer hlt
    have hne : id.initiator ≠ side := hpeer ▸ peer_ne side
    exact ⟨hne, fun hunborn => Nat.not_lt_of_le (hunborn.2 hne) hlt⟩
  constructor
  · intro id half hid
    obtain ⟨⟨hpeer, hlt, hdir⟩, ⟨⟩⟩ := Option.ite_none_right_eq_some.mp hid
    exact ⟨(hborn id hpeer hlt).2, hdir, rfl⟩
  · intro id recv hid
    obtain ⟨⟨hpeer, hlt⟩, ⟨⟩⟩ := Option.ite_none_right_eq_some.mp hid
    exact ⟨(hborn id hpeer hlt).2, (hborn id hpeer hlt).1, rfl⟩

theorem Begins.ordered (h : Begins a) : Ordered a := by
  intro id recv hid
  rw [(h.recv id recv hid).2.2]
  rfl

end Ordered

/-- The streams are only read in order, and the halves kept for new streams are as
good as new. -/
structure Tidy (p : Party) : Prop where
  fresh : Fresh p.streams
  ordered : Ordered (accounts p.streams)

inductive Called (a : Accounts) (q : Retransmits) : Call → Reply → Accounts → Retransmits → Prop
  | openBlocked (dir : Dir) : Called a q (.openStream dir) (.opened none) a q
  | opened (dir : Dir) (h : a.next dir < a.max dir) :
      Called a q (.openStream dir) (.opened (some ⟨a.side, dir, a.next dir⟩)) (a.openLocal dir) q
  | acceptBlocked (dir : Dir) : Called a q (.acceptStream dir) (.accepted none) a q
  | accepted (dir : Dir) (h : a.nextRemote dir ≠ a.nextReportedRemote dir) :
      Called a q (.acceptStream dir)
        (.accepted (some ⟨a.side.peer, dir, a.nextReportedRemote dir⟩))
        { a with
          nextReportedRemote := Function.update a.nextReportedRemote dir
            (a.nextReportedRemote dir + 1) } q
  | writeFailed (id : StreamId) (data : Bytes) (e : WriteError) :
      Called a q (.write id data) (.wrote (.error e)) a q
  | wrote (id : StreamId) (data : Bytes) (n : Nat) (half : Outgoing) (h : a.send id = some half)
      (hready : half.state = .ready) (hconnection : n ≤ a.maxData - a.dataSent)
      (hstream : n ≤ half.maxData - half.buffer.offset) (hlen : n ≤ data.length) :
      Called a q (.write id data) (.wrote (.ok n))
        { a.setSend id (half.write (data.take n)) with dataSent := a.dataSent + n } q
  | finishFailed (id : StreamId) (e : FinishError) :
      Called a q (.finish id) (.finished (.error e)) a q
  | finished (id : StreamId) (half : Outgoing) (h : a.send id = some half)
      (hready : half.state = .ready) :
      Called a q (.finish id) (.finished (.ok ()))
        (a.setSend id { half with state := .dataSent false }) q
  | resetFailed (id : StreamId) (errorCode : Nat) :
      Called a q (.reset id errorCode) (.reset false) a q
  | reset (id : StreamId) (errorCode : Nat) (half : Outgoing) (h : a.send id = some half)
      (hnew : half.state ≠ .resetSent) :
      Called a q (.reset id errorCode) (.reset true)
        (a.setSend id { half with state := .resetSent })
        { q with resetStream := q.resetStream ++ [(id, errorCode)] }
  | readFailed (id : StreamId) (maxLengths : List Nat) :
      Called a q (.read id maxLengths) (.read []) a q
  | read (id : StreamId) (maxLengths : List Nat) (results : List (Except ReadError (Option Chunk)))
      (recv : Recv) (assembler : Assembler) (h : a.recv id = some recv)
      (hstopped : recv.stopped = false)
      (hreads : Reads recv.assembler (readBytes results) assembler)
      (hends : readsEnd results = false) (q' : Retransmits) (hq : Requeued q q' id) :
      Called a q (.read id maxLengths) (.read results)
        ((a.setRecv id { recv with assembler }).credit (readBytes results).length) q'
  | readUp (id : StreamId) (maxLengths : List Nat)
      (results : List (Except ReadError (Option Chunk)))
      (recv : Recv) (assembler : Assembler) (h : a.recv id = some recv)
      (hstopped : recv.stopped = false)
      (hreads : Reads recv.assembler (readBytes results) assembler)
      (hends : recv.isReceiving = false ∧ readsEnd results = false ∨
        recv.state = .recv (some recv.stop) ∧ assembler.bytesRead = recv.stop)
      (maxRemote allocatedRemoteCount : Dir → Nat)
      (hroom : (a.removeRecv id).Room id .recv maxRemote allocatedRemoteCount)
      (q' : Retransmits) (hq : Requeued q q' id) :
      Called a q (.read id maxLengths) (.read results)
        (((a.removeRecv id).allot maxRemote allocatedRemoteCount).credit
          (readBytes results).length) q'
  | stopFailed (id : StreamId) (errorCode : Nat) :
      Called a q (.stop id errorCode) (.stopped false) a q
  | stopped (id : StreamId) (errorCode : Nat) (recv : Recv) (h : a.recv id = some recv)
      (hstopped : recv.stopped = false) (hfinal : recv.finalOffsetUnknown = true)
      (stopSending : List (StreamId × Nat)) (maxData : Bool)
      (hq : ∀ x ∈ stopSending, x ∈ q.stopSending ∨ x = (id, errorCode)) :
      Called a q (.stop id errorCode) (.stopped true)
        ((a.setRecv id { recv with stopped := true, assembler := recv.assembler.clear }).credit
          (recv.stop - recv.assembler.bytesRead))
        { q with stopSending, maxData }
  | stoppedUp (id : StreamId) (errorCode : Nat) (recv : Recv) (h : a.recv id = some recv)
      (hstopped : recv.stopped = false) (hfinal : recv.finalOffsetUnknown = false)
      (maxRemote allocatedRemoteCount : Dir → Nat)
      (hroom : (a.removeRecv id).Room id .recv maxRemote allocatedRemoteCount)
      (stopSending : List (StreamId × Nat)) (maxData : Bool)
      (hq : ∀ x ∈ stopSending, x ∈ q.stopSending ∨ x = (id, errorCode)) :
      Called a q (.stop id errorCode) (.stopped true)
        (((a.removeRecv id).allot maxRemote allocatedRemoteCount).credit
          (recv.stop - recv.assembler.bytesRead))
        { q with stopSending, maxData }
  | polled (event : Option StreamEvent) : Called a q .poll (.polled event) a q
  | receiveWindow (receiveWindow : Nat) (maxData : Bool) :
      Called a q (.setReceiveWindow receiveWindow) .set (resized a receiveWindow) { q with maxData }
  | sendWindow (sendWindow : Nat) : Called a q (.setSendWindow sendWindow) .set a q
  | maxConcurrent (dir : Dir) (count n : Nat) (maxStreamId : Dir → Bool) :
      Called a q (.setMaxConcurrentStreams dir count) .set
        (a.allot (Function.update a.maxRemote dir (a.maxRemote dir + n))
          (Function.update a.allocatedRemoteCount dir (a.allocatedRemoteCount dir + n)))
        { q with maxStreamId }

theorem Called.ordered {q' : Retransmits} {c : Call} {r : Reply}
    (h : Called a q c r a' q') (ha : Ordered a) : Ordered a' := by
  cases h with
  | opened dir => exact ha.openLocal dir
  | read id _ _ recv _ h _ hreads =>
    exact (ha.setRecv (hreads.bytesRead.2.trans (ha id recv h))).credit _
  | readUp id => exact ((ha.removeRecv id).allot _ _).credit _
  | stopped id _ recv h =>
    refine Ordered.credit (ha.setRecv ?_) _
    exact ha id recv h
  | stoppedUp id => exact ((ha.removeRecv id).allot _ _).credit _
  | receiveWindow =>
    unfold resized
    split_ifs <;> exact ha.congr rfl
  | maxConcurrent => exact ha.allot _ _
  | _ => exact ha

section Calls

variable {s s' : StreamsState} {id : StreamId} {q' : Retransmits}

theorem openStream_called (hfresh : Fresh s) {dir : Dir} {opened : Option StreamId}
    (h : openStream s false dir = (opened, s')) :
    Fresh s' ∧ Called (accounts s) q (.openStream dir) (.opened opened) (accounts s') q := by
  unfold openStream at h
  rw [if_neg Bool.false_ne_true] at h
  split_ifs at h with hfull
  · cases h
    exact ⟨hfresh, .openBlocked dir⟩
  · obtain ⟨rfl, rfl⟩ := Prod.mk.inj h
    let t : StreamsState := { s with next := update s.next dir (s.next dir + 1) }
    let id : StreamId := ⟨s.side, dir, s.next dir⟩
    have hrest := insert_rest (s := t) false id
    have hsend : (fun j => ((t.insert false id).getSend j).map ofSend) =
        ((accounts s).openLocal dir).send := by
      funext j
      have hid : (⟨(accounts s).side, dir, (accounts s).next dir⟩ : StreamId) = id := rfl
      rw [getSend_insert]
      simp only [openLocal, update_apply, or_true, and_true, hid]
      split_ifs <;> rfl
    have hrecv : (t.insert false id).getRecv = ((accounts s).openLocal dir).recv := by
      funext j
      rw [getRecv_insert (s := t) hfresh]
      cases dir with
      | bi => simp [openLocal, update_apply, id, accounts, t, getRecv]
      | uni => simp [openLocal, id, accounts, t, getRecv]
    have heq := calc
      accounts { t.insert false id with sendStreams := (t.insert false id).sendStreams + 1 }
      _ = { accounts s with
            next := update s.next dir (s.next dir + 1)
            send := fun j => ((t.insert false id).getSend j).map ofSend
            recv := (t.insert false id).getRecv } := by
          rw [hrest]
          rfl
      _ = (accounts s).openLocal dir := by
          rw [hsend, hrecv]
          rfl
    exact ⟨fresh_insert (s := t) hfresh false, heq ▸ .opened dir (lt_of_not_ge hfull)⟩

theorem acceptStream_called (hfresh : Fresh s) {dir : Dir} {accepted : Option StreamId}
    (h : acceptStream s dir = (accepted, s')) :
    Fresh s' ∧ Called (accounts s) q (.acceptStream dir) (.accepted accepted) (accounts s') q := by
  unfold acceptStream at h
  split_ifs at h with hnone hbi <;> cases h
  · exact ⟨hfresh, .acceptBlocked dir⟩
  all_goals exact ⟨hfresh, .accepted dir hnone⟩

theorem writeStream_called (hfresh : Fresh s) {data : Bytes} {result : Except WriteError Nat}
    (h : writeStream s false id data = (result, s')) :
    Fresh s' ∧ Called (accounts s) q (.write id data) (.wrote result) (accounts s') q := by
  unfold writeStream at h
  rw [if_neg Bool.false_ne_true] at h
  rcases hsend : s.getSend id with _ | half
  · rw [hsend] at h
    cases h
    exact ⟨hfresh, .writeFailed id data _⟩
  · simp only [hsend] at h
    have hkept := accounts_getSend hsend
    by_cases hlimit : s.writeLimit = 0
    · split_ifs at h <;> cases h
      · exact ⟨hfresh, hkept ▸ .writeFailed id data _⟩
      · have heq : accounts
            ((s.setSend id half).setSend id { half with connectionBlocked := true }) =
            accounts s := by
          rw [accounts_setSend, hkept, ← hkept, accounts_setSend]
          simp only [Accounts.setSend, update_idem]
          rfl
        exact ⟨hfresh, heq ▸ .writeFailed id data _⟩
    · rw [if_neg hlimit] at h
      rcases hwrite : half.write data s.writeLimit with e | ⟨written, _⟩
      · rw [hwrite] at h
        cases h
        exact ⟨hfresh, hkept ▸ .writeFailed id data _⟩
      · rw [hwrite] at h
        cases h
        obtain ⟨hready, hlimit', hbudget, hlen, rfl⟩ := Send.write_eq_ok hwrite
        have hhalf : ∀ data : Bytes, ofSend (if data.isEmpty then half
            else { half with pending := half.pending.write data }) = (ofSend half).write data := by
          intro data
          unfold write
          split_ifs <;> rfl
        have hset : accounts ((s.setSend id half).setSend id _) = _ :=
          (accounts_setSend _).trans (by rw [hhalf (data.take written.bytes), hkept])
        refine ⟨hfresh, ?_⟩
        change Called _ q _ _ { accounts ((s.setSend id half).setSend id _) with
          dataSent := s.dataSent + written.bytes } q
        rw [hset]
        exact .wrote id data written.bytes (.ofSend half) (by simp [accounts, hsend]) hready
          (le_trans hlimit' (Nat.min_le_left _ _)) hbudget hlen

theorem finishStream_called (hfresh : Fresh s) {result : Except FinishError Unit}
    (h : finishStream s id = (result, s')) :
    Fresh s' ∧ Called (accounts s) q (.finish id) (.finished result) (accounts s') q := by
  unfold finishStream at h
  rcases hsend : s.getSend id with _ | half
  · rw [hsend] at h
    cases h
    exact ⟨hfresh, .finishFailed id _⟩
  · simp only [hsend] at h
    rcases hfinish : half.finish with e | _
    · rw [hfinish] at h
      cases h
      exact ⟨hfresh, accounts_getSend hsend ▸ .finishFailed id _⟩
    · rw [hfinish] at h
      cases h
      unfold Send.finish at hfinish
      split at hfinish
      · cases hfinish
      · split_ifs at hfinish with hready
        cases hfinish
        refine ⟨hfresh, ?_⟩
        change Called _ q _ _
          (accounts (s.setSend id { half with state := .dataSent false, finPending := true })) q
        rw [accounts_setSend]
        exact .finished id (.ofSend half) (by simp [accounts, hsend]) hready

theorem resetStream_called (hfresh : Fresh s) {errorCode : Nat} {result : Bool}
    (h : resetStream s q id errorCode = (result, s', q')) :
    Fresh s' ∧ Called (accounts s) q (.reset id errorCode) (.reset result) (accounts s') q' := by
  unfold resetStream at h
  rcases hsend : s.getSend id with _ | half
  · rw [hsend] at h
    cases h
    exact ⟨hfresh, .resetFailed id errorCode⟩
  · simp only [hsend] at h
    split_ifs at h with hreset <;> cases h
    · exact ⟨hfresh, accounts_getSend hsend ▸ .resetFailed id errorCode⟩
    · have hcalled : Called (accounts s) q (.reset id errorCode) (.reset true) _ _ :=
        .reset id errorCode (.ofSend half) (by simp [accounts, hsend])
          (by simpa [Send.isReset, ofSend] using hreset)
      have hreset : ofSend half.reset = { ofSend half with state := .resetSent } := by
        unfold Send.reset
        split
        · rfl
        · rfl
        · rename_i heq
          simp [ofSend, heq]
      rw [← hreset, ← accounts_setSend] at hcalled
      exact ⟨hfresh, hcalled⟩

theorem stopStream_called (hfresh : Fresh s) {errorCode : Nat} {result : Bool}
    (h : stopStream s q id errorCode = (result, s', q')) :
    Fresh s' ∧ Called (accounts s) q (.stop id errorCode) (.stopped result) (accounts s') q' := by
  unfold stopStream at h
  rcases hrecv : s.getRecv id with _ | recv
  · rw [hrecv] at h
    cases h
    exact ⟨hfresh, .stopFailed id errorCode⟩
  · simp only [hrecv, Recv.stopReceiving] at h
    rcases hstopped : recv.stopped with _ | _
    · simp only [hstopped, Bool.false_eq_true, if_false] at h
      obtain ⟨rfl, rfl, rfl⟩ : true = result ∧ _ = s' ∧ _ = q' := by
        simpa only [Prod.mk.injEq] using h
      have hqueue : ∀ (flag maxData : Bool) (a' : Accounts),
          (∀ stopSending maxData, (∀ x ∈ stopSending, x ∈ q.stopSending ∨ x = (id, errorCode)) →
            Called (accounts s) q (.stop id errorCode) (.stopped true) a'
              { q with stopSending, maxData }) →
          Called (accounts s) q (.stop id errorCode) (.stopped true) a'
            { (if flag = true then { q with
              stopSending := q.stopSending ++ [(id, errorCode)] } else q) with maxData } := by
        rintro (_ | _) maxData a' h
        · exact h _ _ fun x hx => .inl hx
        · exact h _ _ fun x hx => by simpa using hx
      rcases hfinal : recv.finalOffsetUnknown with _ | _
      · have hfinal' : Recv.finalOffsetUnknown
            { recv with stopped := true, assembler := recv.assembler.clear } = false := hfinal
        rw [hfinal', if_neg Bool.false_ne_true]
        have hremoved : accounts ((s.setRecv id { recv with
            stopped := true, assembler := recv.assembler.clear }).removeRecv id) =
            (accounts s).removeRecv id := by
          rw [accounts_removeRecv, accounts_setRecv]
          simp only [Accounts.removeRecv, Accounts.setRecv, update_idem]
        obtain ⟨hfresh', maxRemote, allocated, hroom, heq⟩ := accounts_streamRecvFreed
          (s := (s.setRecv id { recv with
            stopped := true, assembler := recv.assembler.clear }).removeRecv id) hfresh id
          { recv with stopped := true, assembler := recv.assembler.clear }
        rw [hremoved] at hroom heq
        refine ⟨fresh_addReadCredits hfresh' _, hqueue _ _ _ fun stops maxData hq => ?_⟩
        rw [accounts_addReadCredits, heq]
        exact .stoppedUp id errorCode recv hrecv hstopped hfinal maxRemote allocated hroom stops
          maxData hq
      · have hfinal' : Recv.finalOffsetUnknown
            { recv with stopped := true, assembler := recv.assembler.clear } = true := hfinal
        rw [hfinal', if_pos rfl]
        refine ⟨fresh_addReadCredits (s := s.setRecv id _) hfresh _,
          hqueue _ _ _ fun stops maxData hq => ?_⟩
        rw [accounts_addReadCredits, accounts_setRecv]
        exact .stopped id errorCode recv hrecv hstopped hfinal stops maxData hq
    · simp only [hstopped, if_true] at h
      cases h
      exact ⟨hfresh, accounts_getRecv hrecv ▸ .stopFailed id errorCode⟩

theorem readStream_called (hfresh : Fresh s)
    (hordered : ∀ recv, s.getRecv id = some recv → recv.assembler.state = .ordered)
    {maxLengths : List Nat} {results : List (Except ReadError (Option Chunk))}
    (h : readStream s q id maxLengths = (results, s', q')) :
    Fresh s' ∧ Called (accounts s) q (.read id maxLengths) (.read results) (accounts s') q' := by
  unfold readStream Chunks.new at h
  rcases hrecv : s.getRecv id with _ | recv
  · rw [hrecv] at h
    cases h
    exact ⟨hfresh, .readFailed id maxLengths⟩
  rcases hstopped : recv.stopped with _ | _
  · have hensure : recv.assembler.ensureOrdering true = some recv.assembler := by
      simp [Assembler.ensureOrdering, Assembler.isOrdered, hordered recv hrecv]
    simp only [hrecv, hstopped, hensure, Bool.false_eq_true, if_false] at h
    have hopened : ({ recv with stopped := false } : Recv) = recv := by rw [← hstopped]
    rw [hopened] at h
    generalize hchunks : (⟨id, true, s.removeRecv id, .readable recv, 0⟩ : Chunks) = chunks at h
    generalize hc' : (chunks.nextEach maxLengths).2 = c' at h
    obtain ⟨hresults, hfinal⟩ := Prod.mk.inj h
    obtain ⟨hid, hread, assembler, hreads, hafter⟩ := nextEach_readable
      (by rw [← hchunks]) (by rw [← hchunks])
      (show chunks.nextEach maxLengths = (results, c') from Prod.ext hresults hc')
    rw [← hchunks] at hid hread hafter
    rw [zero_add] at hread
    obtain ⟨hfresh', hrequeued, haccounts⟩ := finalize_cases hfinal
    rw [hid] at hrequeued haccounts
    rw [hread] at haccounts
    rcases hafter with ⟨hkept, hstreams, hends⟩ | ⟨hgone, hstreams, hwhy⟩
    · rw [hstreams] at hfresh' haccounts
      rcases haccounts with ⟨r, hr, heq⟩ | ⟨hr, -⟩
      · cases hkept.symm.trans hr
        rw [accounts_removeRecv] at heq
        simp only [Accounts.removeRecv, Accounts.setRecv, update_idem] at heq
        exact ⟨hfresh' hfresh, heq ▸ .read id maxLengths results recv assembler hrecv
          hstopped hreads
          hends q' hrequeued⟩
      · exact absurd hkept (hr _)
    · obtain ⟨hfreshFreed, maxRemote, allocated, hroom, hfreed⟩ := accounts_streamRecvFreed
        (s := s.removeRecv id) hfresh id { recv with assembler }
      rw [← hstreams] at hfreshFreed hfreed
      rw [accounts_removeRecv] at hroom hfreed
      rcases haccounts with ⟨r, hr, -⟩ | ⟨-, heq⟩
      · exact absurd hr (hgone r)
      · rw [hfreed] at heq
        exact ⟨hfresh' hfreshFreed, heq ▸ .readUp id maxLengths results recv assembler
          hrecv hstopped
          hreads hwhy maxRemote allocated hroom q' hrequeued⟩
  · simp only [hrecv, hstopped, if_true] at h
    cases h
    exact ⟨hfresh, accounts_getRecv hrecv ▸ .readFailed id maxLengths⟩

end Calls

theorem call_called {c : Call} {r : Reply} (hp : Tidy p) (h : p.call c = (r, p')) :
    Tidy p' ∧ Called (accounts p.streams) p.pending c r (accounts p'.streams) p'.pending := by
  suffices hcalled : Fresh p'.streams ∧
      Called (accounts p.streams) p.pending c r (accounts p'.streams) p'.pending from
    ⟨⟨hcalled.1, hcalled.2.ordered hp.ordered⟩, hcalled.2⟩
  cases c with
  | openStream =>
    cases h
    exact openStream_called hp.fresh rfl
  | acceptStream =>
    cases h
    exact acceptStream_called hp.fresh rfl
  | write =>
    cases h
    exact writeStream_called hp.fresh rfl
  | finish =>
    cases h
    exact finishStream_called hp.fresh rfl
  | reset =>
    cases h
    exact resetStream_called hp.fresh rfl
  | read id =>
    cases h
    exact readStream_called hp.fresh (hp.ordered id) rfl
  | stop =>
    cases h
    exact stopStream_called hp.fresh rfl
  | poll =>
    obtain ⟨hfresh, heq⟩ := accounts_poll hp.fresh
    cases h
    exact ⟨hfresh, heq ▸ .polled _⟩
  | setReceiveWindow receiveWindow =>
    obtain ⟨hfresh, heq⟩ := accounts_setReceiveWindow hp.fresh receiveWindow
    cases h
    exact ⟨hfresh, heq ▸ .receiveWindow receiveWindow _⟩
  | setSendWindow sendWindow =>
    cases h
    exact ⟨hp.fresh, .sendWindow sendWindow⟩
  | setMaxConcurrentStreams dir count =>
    obtain ⟨hfresh, n, heq⟩ := accounts_setMaxConcurrent hp.fresh dir count
    cases h
    exact ⟨hfresh, heq ▸ .maxConcurrent dir count n _⟩

inductive Heard (a : Accounts) (payloadLen : Nat) : StreamsFrame → Accounts → Prop
  | stream (frame : StreamFrame) (hid : Receivable a frame.id) (a' : Accounts)
      (h : Received a frame payloadLen a') : Heard a payloadLen (.stream frame) a'
  | resetStream (id : StreamId) (errorCode finalOffset : Nat) (hid : Receivable a id)
      (a' : Accounts) (h : ReceivedReset a id errorCode finalOffset a') :
      Heard a payloadLen (.resetStream id errorCode finalOffset) a'
  | stopIgnored (id : StreamId) (errorCode : Nat) : Heard a payloadLen (.stopSending id errorCode) a
  | stopSending (id : StreamId) (errorCode : Nat) (half : Outgoing) (h : a.send id = some half) :
      Heard a payloadLen (.stopSending id errorCode) (a.announce id)
  | maxData (limit : Nat) :
      Heard a payloadLen (.maxData limit) { a with maxData := a.maxData.max limit }
  | maxStreamData (id : StreamId) (limit : Nat) (half : Outgoing) (h : a.send id = some half) :
      Heard a payloadLen (.maxStreamData id limit) ((a.setSend id (raise half limit)).announce id)
  | maxStreamDataClosed (id : StreamId) (limit : Nat) (h : a.send id = none) :
      Heard a payloadLen (.maxStreamData id limit) (a.announce id)
  | maxStreams (dir : Dir) (count : Nat) : Heard a payloadLen (.maxStreams dir count)
        { a with max := Function.update a.max dir ((a.max dir).max count) }
  | streamsBlocked (dir : Dir) (limit : Nat) : Heard a payloadLen (.streamsBlocked dir limit) a

theorem ingested_ordered {recv : Recv} (h : recv.assembler.state = .ordered) (frame : StreamFrame)
    (payloadLen : Nat) : (recv.ingested frame payloadLen).assembler.state = .ordered ∧
      (recv.ingested frame payloadLen).assembler.bytesRead = recv.assembler.bytesRead := by
  unfold Recv.ingested
  dsimp only
  split_ifs
  · exact ⟨h, rfl⟩
  · exact Assembler.insert_ordered h _ _ _

theorem Ordered.ingested (ha : Ordered a) {frame : StreamFrame} {recv : Recv}
    (h : a.recv frame.id = some recv) (payloadLen : Nat) :
    Ordered (FrameAccounts.ingested a frame payloadLen recv) :=
  (ha.setRecv (ingested_ordered (ha _ recv h) frame payloadLen).1).congr rfl

theorem Ordered.settle (ha : Ordered a) (recv : Recv) (finalOffset : Nat) :
    Ordered (FrameAccounts.settle a recv finalOffset) := by
  unfold FrameAccounts.settle
  split_ifs
  · refine Ordered.credit ?_ _
    exact ha
  · exact ha

variable {frame : StreamsFrame}

theorem Heard.ordered (h : Heard a payloadLen frame a') (ha : Ordered a) : Ordered a' := by
  cases h with
  | stream _ _ _ h =>
    cases h with
    | dropped => exact ha
    | buffered _ h => exact (ha.ingested h payloadLen).announce _
    | discarded _ h => exact (ha.ingested h payloadLen).credit _
    | closed _ h => exact (((ha.ingested h payloadLen).removeRecv _).allot _ _).credit _
  | resetStream id _ finalOffset _ _ h =>
    cases h with
    | redundant => exact ha
    | reset recv h =>
      refine Ordered.settle (Ordered.announce (ha.setRecv ?_) id) recv finalOffset
      exact ha _ recv h
    | closed recv =>
      exact (((ha.removeRecv id).allot _ _).announce id).settle recv finalOffset
  | stopSending id => exact ha.announce id
  | maxStreamData id => exact Ordered.announce (a := a.setSend id _) ha id
  | maxStreamDataClosed id => exact ha.announce id
  | _ => exact ha

section Frames

variable {s s' : StreamsState} {id : StreamId}

theorem receivedStopSending_heard (hfresh : Fresh s) (id : StreamId) (errorCode : Nat) :
    Fresh (s.receivedStopSending id errorCode) ∧ Heard (accounts s) payloadLen
      (.stopSending id errorCode) (accounts (s.receivedStopSending id errorCode)) := by
  unfold receivedStopSending
  rcases hsend : s.getSend id with _ | half
  · exact ⟨hfresh, .stopIgnored id errorCode⟩
  · have hkept : accounts (s.setSend id (half.tryStop errorCode).2) = accounts s := by
      rw [← accounts_getSend hsend, accounts_setSend, accounts_setSend]
      unfold Send.tryStop
      split <;> rfl
    dsimp only
    split_ifs
    · refine ⟨fresh_onStreamFrame (s := { s.setSend id _ with events := _ }) hfresh false, ?_⟩
      rw [accounts_onStreamFrame]
      change Heard _ _ _ (announce (accounts (s.setSend id _)) id)
      rw [hkept]
      exact .stopSending id errorCode (.ofSend half) (by simp [accounts, hsend])
    · exact ⟨hfresh, hkept ▸ .stopIgnored id errorCode⟩

theorem receivedMaxStreamData_heard (hfresh : Fresh s) {limit : Nat}
    (h : s.receivedMaxStreamData id limit = .ok s') :
    Fresh s' ∧ Heard (accounts s) payloadLen (.maxStreamData id limit) (accounts s') := by
  unfold receivedMaxStreamData at h
  split at h
  · cases h
  · rcases hsend : s.getSend id with _ | half
    · simp only [hsend] at h
      split_ifs at h
      cases h
      refine ⟨fresh_onStreamFrame hfresh false, ?_⟩
      rw [accounts_onStreamFrame]
      exact .maxStreamDataClosed id limit (by simp [accounts, hsend])
    · simp only [hsend] at h
      have hraise : ∀ blocked, ofSend { (half.increaseMaxData limit).2 with
          connectionBlocked := blocked } = raise (.ofSend half) limit := by
        intro blocked
        unfold Send.increaseMaxData raise
        have hiff : (limit ≤ (ofSend half).maxData ∨ (ofSend half).state ≠ .ready) ↔
            (limit ≤ half.maxData ∨ half.state ≠ .ready) := .rfl
        by_cases hraise : limit ≤ half.maxData ∨ half.state ≠ .ready
        · rw [if_pos hraise, if_pos (hiff.mpr hraise)]
          rfl
        · rw [if_neg hraise, if_neg (mt hiff.mp hraise)]
          rfl
      have hset : ∀ blocked, accounts (s.setSend id { (half.increaseMaxData limit).2 with
          connectionBlocked := blocked }) =
            (accounts s).setSend id (raise (.ofSend half) limit) := by
        intro blocked
        rw [accounts_setSend, hraise]
      have hown := hset (half.increaseMaxData limit).2.connectionBlocked
      suffices hs' : Fresh s' ∧ accounts s' = ((accounts s).setSend id
          (raise (.ofSend half) limit)).announce id from
        ⟨hs'.1, hs'.2 ▸ .maxStreamData id limit (.ofSend half) (by simp [accounts, hsend])⟩
      split_ifs at h <;> cases h
      all_goals
        refine ⟨?_, ?_⟩
        · refine fresh_onStreamFrame ?_ false
          exact hfresh
        · rw [accounts_onStreamFrame]
          first
            | exact congrArg (announce · id) hown
            | exact congrArg (announce · id) (hset true)

end Frames

theorem accepts_heard {s s' : StreamsState} (hs : Fresh s) (h : Accepts s payloadLen frame s') :
    Fresh s' ∧ Heard (accounts s) payloadLen frame (accounts s') := by
  cases h with
  | stream frame h =>
    obtain ⟨hid, hfresh, hcases⟩ := received_of_ok hs h
    exact ⟨hfresh, .stream frame hid _ hcases⟩
  | resetStream id errorCode finalOffset h =>
    obtain ⟨hid, hfresh, hcases⟩ := receivedReset_of_ok hs h
    exact ⟨hfresh, .resetStream id errorCode finalOffset hid _ hcases⟩
  | stopSending id errorCode => exact receivedStopSending_heard hs id errorCode
  | maxData limit => exact ⟨hs, .maxData limit⟩
  | maxStreamData _ _ h => exact receivedMaxStreamData_heard hs h
  | maxStreams dir count h =>
    obtain ⟨hfresh, heq⟩ := receivedMaxStreams_of_ok hs h
    exact ⟨hfresh, heq ▸ .maxStreams dir count⟩
  | streamsBlocked dir limit => exact ⟨hs, .streamsBlocked dir limit⟩

theorem receive_heard (hp : Tidy p) (h : p.receive payloadLen frame = .ok p') :
    Tidy p' ∧ Heard (accounts p.streams) payloadLen frame (accounts p'.streams) ∧
      ∃ maxData maxStreamId, p'.pending = { p.pending with maxData, maxStreamId } := by
  obtain ⟨haccepts, hpending⟩ := Party.receive_accepts h
  obtain ⟨hfresh, hheard⟩ := accepts_heard hp.fresh haccepts
  exact ⟨⟨hfresh, hheard.ordered hp.ordered⟩, hheard, hpending⟩

inductive Acked (a : Accounts) : StreamsFrame → Accounts → Prop
  | ignored (frame : StreamsFrame) : Acked a frame a
  | stream (frame : StreamFrame) (half : Outgoing) (h : a.send frame.id = some half) :
      Acked a (.stream frame) (a.setSend frame.id (ackedHalf half (streamMeta frame)))
  | finished (frame : StreamFrame) (half : Outgoing) (h : a.send frame.id = some half)
      (finishAcked : Bool) (hstate : half.state = .dataSent finishAcked)
      (maxRemote allocatedRemoteCount : Dir → Nat)
      (hroom : (a.removeSend frame.id).Room frame.id .send maxRemote allocatedRemoteCount) :
      Acked a (.stream frame) ((a.removeSend frame.id).allot maxRemote allocatedRemoteCount)
  | reset (id : StreamId) (errorCode finalOffset : Nat) (half : Outgoing)
      (h : a.send id = some half) (hstate : half.state = .resetSent)
      (maxRemote allocatedRemoteCount : Dir → Nat)
      (hroom : (a.removeSend id).Room id .send maxRemote allocatedRemoteCount) :
      Acked a (.resetStream id errorCode finalOffset)
        ((a.removeSend id).allot maxRemote allocatedRemoteCount)

theorem Acked.ordered (h : Acked a frame a') (ha : Ordered a) : Ordered a' := by
  cases h with
  | finished frame => exact Ordered.allot (a := a.removeSend frame.id) ha _ _
  | reset id => exact Ordered.allot (a := a.removeSend id) ha _ _
  | _ => exact ha

section Acks

variable {s : StreamsState}

theorem resetAcked_acked (hfresh : Fresh s) (id : StreamId) (errorCode finalOffset : Nat) :
    Fresh (s.resetAcked id) ∧ Acked (accounts s) (.resetStream id errorCode finalOffset)
      (accounts (s.resetAcked id)) := by
  unfold resetAcked
  split
  · rename_i half hsend
    split_ifs with hreset
    · obtain ⟨hfresh', maxRemote, allocated, hroom, heq⟩ :=
        accounts_streamFreed (s := s.removeSend id) hfresh id .send
      rw [accounts_removeSend] at hroom heq
      have hstate : half.state = .resetSent := by simpa [Send.isReset] using hreset
      exact ⟨hfresh', heq ▸ .reset id errorCode finalOffset (.ofSend half)
        (by simp [accounts, getSend, hsend]) hstate maxRemote allocated hroom⟩
    · exact ⟨hfresh, .ignored _⟩
  · exact ⟨hfresh, .ignored _⟩

theorem receivedAckOf_acked (hfresh : Fresh s) (frame : StreamFrame) :
    Fresh (s.receivedAckOf (streamMeta frame)) ∧ Acked (accounts s) (.stream frame)
      (accounts (s.receivedAckOf (streamMeta frame))) := by
  unfold receivedAckOf
  split
  · rename_i half hsend
    change s.send frame.id = _ at hsend
    split_ifs with hreset
    · exact ⟨hfresh, .ignored _⟩
    · have hget : (accounts s).send frame.id = some (.ofSend half) := by
        simp [accounts, getSend, hsend]
      have hacked :
          ofSend (half.ack (streamMeta frame)).2 = ackedHalf (.ofSend half) (streamMeta frame) := by
        unfold Send.ack ackedHalf
        rcases hstate : half.state with _ | finishAcked | _ <;> simp [ofSend, hstate]
      dsimp only
      split_ifs with hfinished
      · obtain ⟨hfresh', maxRemote, allocated, hroom, heq⟩ := accounts_streamFreed
          (s := removeSend { s with unackedData := _ } frame.id) hfresh frame.id .send
        rw [accounts_removeSend, accounts_unackedData] at hroom heq
        unfold Send.ack at hfinished
        rcases hstate : half.state with _ | finishAcked | _
        · simp [hstate] at hfinished
        · exact ⟨hfresh', heq ▸ .finished frame (.ofSend half) hget finishAcked hstate maxRemote
            allocated hroom⟩
        · simp [hstate] at hfinished
      · refine ⟨hfresh, ?_⟩
        rw [accounts_setSend, accounts_unackedData, hacked]
        exact .stream frame (.ofSend half) hget
  · exact ⟨hfresh, .ignored _⟩

end Acks

theorem acked_acked (hp : Tidy p) (frame : StreamsFrame) :
    Tidy (p.acked frame) ∧ Acked (accounts p.streams) frame (accounts (p.acked frame).streams) ∧
      (p.acked frame).pending = p.pending := by
  suffices hacked : Fresh (p.acked frame).streams ∧
      Acked (accounts p.streams) frame (accounts (p.acked frame).streams) ∧
      (p.acked frame).pending = p.pending from
    ⟨⟨hacked.1, hacked.2.1.ordered hp.ordered⟩, hacked.2⟩
  cases frame with
  | stream frame =>
    obtain ⟨hfresh, hacked⟩ := receivedAckOf_acked hp.fresh frame
    exact ⟨hfresh, hacked, rfl⟩
  | resetStream id errorCode finalOffset =>
    obtain ⟨hfresh, hacked⟩ := resetAcked_acked hp.fresh id errorCode finalOffset
    exact ⟨hfresh, hacked, rfl⟩
  | _ => exact ⟨hp.fresh, .ignored _, rfl⟩

inductive Lost (a : Accounts) : StreamsFrame → Accounts → Prop
  | ignored (frame : StreamsFrame) : Lost a frame a
  | stream (frame : StreamFrame) (half : Outgoing) (h : a.send frame.id = some half) :
      Lost a (.stream frame) (a.setSend frame.id { half with
        buffer := half.buffer.retransmit frame.offset (frame.offset + frame.data.length) })

/-- The frame that says the same again is queued. -/
structure Requeues (q : Retransmits) (frame : StreamsFrame) (q' : Retransmits) : Prop where
  resetStream : ∀ x ∈ q'.resetStream, x ∈ q.resetStream ∨
    ∃ finalOffset, frame = .resetStream x.1 x.2 finalOffset
  stopSending : ∀ x ∈ q'.stopSending, x ∈ q.stopSending ∨ frame = .stopSending x.1 x.2
  maxStreamData : ∀ id ∈ q'.maxStreamData, id ∈ q.maxStreamData ∨
    ∃ limit, frame = .maxStreamData id limit

theorem lost_lost (hp : Tidy p) (frame : StreamsFrame) :
    Tidy (p.lost frame) ∧ Lost (accounts p.streams) frame (accounts (p.lost frame).streams) ∧
      Requeues p.pending frame (p.lost frame).pending := by
  cases frame with
  | stream frame =>
    have hrequeues : Requeues p.pending (.stream frame) p.pending :=
      ⟨fun _ hx => .inl hx, fun _ hx => .inl hx, fun _ hx => .inl hx⟩
    simp only [Party.lost, retransmit]
    split
    · rename_i half hsend
      change p.streams.send frame.id = _ at hsend
      refine ⟨⟨hp.fresh, hp.ordered⟩, ?_, hrequeues⟩
      rw [accounts_setSend]
      exact .stream frame (.ofSend half) (by simp [accounts, getSend, hsend])
    · exact ⟨⟨hp.fresh, hp.ordered⟩, .ignored _, hrequeues⟩
  | resetStream _ _ finalOffset =>
    refine ⟨⟨hp.fresh, hp.ordered⟩, .ignored _, ⟨fun x hx => ?_, fun _ hx => .inl hx,
      fun _ hx => .inl hx⟩⟩
    rcases List.mem_append.mp hx with hx | hx
    · exact .inl hx
    · rw [List.mem_singleton.mp hx]
      exact .inr ⟨finalOffset, rfl⟩
  | stopSending =>
    refine ⟨⟨hp.fresh, hp.ordered⟩, .ignored _, ⟨fun _ hx => .inl hx, fun x hx => ?_,
      fun _ hx => .inl hx⟩⟩
    rcases List.mem_append.mp hx with hx | hx
    · exact .inl hx
    · rw [List.mem_singleton.mp hx]
      exact .inr rfl
  | maxStreamData _ limit =>
    refine ⟨⟨hp.fresh, hp.ordered⟩, .ignored _, ⟨fun _ hx => .inl hx, fun _ hx => .inl hx,
      fun x hx => ?_⟩⟩
    rcases List.mem_insert_iff.mp hx with rfl | hx
    · exact .inr ⟨limit, rfl⟩
    · exact .inl hx
  | _ =>
    exact ⟨⟨hp.fresh, hp.ordered⟩, .ignored _, ⟨fun _ hx => .inl hx, fun _ hx => .inl hx,
      fun _ hx => .inl hx⟩⟩

/-- What an acknowledgement or a loss does: a sending half stays under its limit, or goes. -/
inductive Fate (a : Accounts) : Accounts → Prop
  | same : Fate a a
  | moved {id : StreamId} {half half' : Outgoing} (h : a.send id = some half)
      (hsame : half'.maxData = half.maxData) : Fate a (a.setSend id half')
  | freed {id : StreamId} {half : Outgoing} (h : a.send id = some half)
      {maxRemote allocatedRemoteCount : Dir → Nat}
      (hroom : (a.removeSend id).Room id .send maxRemote allocatedRemoteCount) :
      Fate a ((a.removeSend id).allot maxRemote allocatedRemoteCount)

theorem Acked.fate (h : Acked a frame a') : Fate a a' := by
  cases h with
  | ignored => exact .same
  | stream _ _ h => exact .moved h rfl
  | finished _ _ h _ _ _ _ hroom => exact .freed h hroom
  | reset _ _ _ _ h _ _ _ hroom => exact .freed h hroom

theorem Lost.fate (h : Lost a frame a') : Fate a a' := by
  cases h with
  | ignored => exact .same
  | stream _ _ h => exact .moved h rfl

theorem Emits.ordered (h : Emits q a frame a') (ha : Ordered a) : Ordered a' := by
  cases h with
  | maxStreamData id recv h =>
    refine ha.setRecv ?_
    unfold Recv.recordSentMaxStreamData
    split_ifs <;> exact ha id recv h
  | _ => exact ha

theorem Sends.ordered {frames : List StreamsFrame}
    (h : Sends q a frames a') (ha : Ordered a) : Ordered a' := by
  induction h with
  | nil => exact ha
  | cons h _ ih => exact ih (Emits.ordered h ha)

theorem transmit_sent {space : PacketSpace} {frames : List StreamsFrame}
    (hp : Tidy p) (hlimits : space.limits.isPerm p.pending.maxStreamData = true)
    (h : p.transmit space = some (frames, p')) :
    Tidy p' ∧ Sends p.pending (accounts p.streams) frames (accounts p'.streams) ∧
      Within p'.pending p.pending := by
  obtain ⟨hfresh, hsends, hwithin⟩ := transmit_sends hp.fresh h
  have hperm := List.isPerm_iff.mp hlimits
  have hqueued : Within { p.pending with maxStreamData := space.limits } p.pending :=
    ⟨fun _ hx => hx, fun _ hx => hx, fun _ hx => hperm.mem_iff.mp hx⟩
  have hsends := hsends.mono hqueued
  exact ⟨⟨hfresh, Sends.ordered hsends hp.ordered⟩, hsends, hwithin.trans hqueued⟩

/-- What a move has done to the side that made it. -/
inductive Done (s : State) : Move → State → Prop
  | call {c : Call} (hcalled : Called (accounts s.party.streams) s.party.pending c
      (s.party.call c).1 (accounts (s.party.call c).2.streams) (s.party.call c).2.pending) :
      Done s (.call c) { s with party := (s.party.call c).2 }
  | receive {payloadLen : Nat} {frame : StreamsFrame} {party : Party}
      (hreceive : s.party.receive payloadLen frame = .ok party)
      (hheard : Heard (accounts s.party.streams) payloadLen frame (accounts party.streams))
      (hpending : ∃ maxData maxStreamId,
        party.pending = { s.party.pending with maxData, maxStreamId }) :
      Done s (.receive payloadLen frame) { s with party }
  | transmit {space : PacketSpace} {frames : List StreamsFrame} {party : Party}
      (htransmit : s.party.transmit space = some (frames, party))
      (hsends : Sends s.party.pending (accounts s.party.streams) frames (accounts party.streams))
      (hwithin : Within party.pending s.party.pending) :
      Done s (.transmit space) ⟨party, s.sent ++ frames⟩
  | acked {frame : StreamsFrame} (hsent : frame ∈ s.sent)
      (hacked : Acked (accounts s.party.streams) frame (accounts (s.party.acked frame).streams))
      (hpending : (s.party.acked frame).pending = s.party.pending) :
      Done s (.acked frame) { s with party := s.party.acked frame }
  | lost {frame : StreamsFrame} (hsent : frame ∈ s.sent)
      (hlost : Lost (accounts s.party.streams) frame (accounts (s.party.lost frame).streams))
      (hrequeues : Requeues s.party.pending frame (s.party.lost frame).pending) :
      Done s (.lost frame) { s with party := s.party.lost frame }

theorem step_done {s s' : State} {m : Move} (htidy : Tidy s.party) (h : step s m = some s') :
    Tidy s'.party ∧ Done s m s' := by
  cases m with
  | call c =>
    cases h
    obtain ⟨htidy', hcalled⟩ := call_called htidy (c := c) rfl
    exact ⟨htidy', .call hcalled⟩
  | receive =>
    simp only [step] at h
    split at h
    · rename_i party hreceive
      cases h
      obtain ⟨htidy', hheard, hpending⟩ := receive_heard htidy hreceive
      exact ⟨htidy', .receive hreceive hheard hpending⟩
    · cases h
  | transmit =>
    simp only [step] at h
    split_ifs at h with hlimits
    obtain ⟨⟨_, _⟩, htransmit, rfl⟩ := Option.map_eq_some_iff.mp h
    obtain ⟨htidy', hsends, hwithin⟩ := transmit_sent htidy hlimits htransmit
    exact ⟨htidy', .transmit htransmit hsends hwithin⟩
  | acked frame =>
    obtain ⟨hsent, ⟨⟩⟩ := Option.ite_none_right_eq_some.mp h
    obtain ⟨htidy', hacked, hpending⟩ := acked_acked htidy frame
    exact ⟨htidy', .acked hsent hacked hpending⟩
  | lost frame =>
    obtain ⟨hsent, ⟨⟩⟩ := Option.ite_none_right_eq_some.mp h
    obtain ⟨htidy', hlost, hrequeues⟩ := lost_lost htidy frame
    exact ⟨htidy', .lost hsent hlost hrequeues⟩

end Quac.PartySteps
