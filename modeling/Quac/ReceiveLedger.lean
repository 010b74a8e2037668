import Mathlib.Order.Interval.Finset.Nat
import Quac.BufferedBytes
import Quac.Lib.Tallies
import Quac.StreamHalves

/-!
A ledger of received data: for each stream how much of it has arrived, and how much of
that was read or discarded.  It agrees with the receiving halves in every state.
-/

namespace Quac.ReceiveLedger

open BufferedBytes CallAccounts FrameAccounts Identifiers Lib.Registry Lib.Tallies PartySteps
open Reassembly RecvHalf StreamAccess StreamAccounts StreamHalves StreamParty
open StreamTransmit Streams TransmitAccounts

variable {assembler : Assembler} {consumed errorCode : Nat}

structure Ledger where
  /-- How far the data of the stream reaches that has arrived. -/
  received : Tally StreamId
  /-- How much of it was read by the application or discarded. -/
  consumed : Tally StreamId

namespace Ledger

def empty : Ledger :=
  ⟨.empty, .empty⟩

def put (l : Ledger) (id : StreamId) (received consumed : Nat) : Ledger :=
  ⟨l.received.set id received, l.consumed.set id consumed⟩

def called (l : Ledger) : Call → Reply → Ledger
  | .read id _, .read results =>
    l.put id (l.received.count id) (l.consumed.count id + (readBytes results).length)
  | .stop id _, .stopped true => l.put id (l.received.count id) (l.received.count id)
  | _, _ => l

def heard (l : Ledger) (recv : StreamId → Option Recv) : StreamsFrame → Ledger :=
  noteFrame recv
    (fun half frame =>
      let received := (l.received.count frame.id).max (frame.offset + frame.data.length)
      -- Data on a stopped stream is discarded at once.
      l.put frame.id received (if half.stopped then received else l.consumed.count frame.id))
    (fun id finalOffset =>
      let received := (l.received.count id).max finalOffset
      l.put id received received)
    l

def observe (s : State) (m : Move) (l : Ledger) : Ledger :=
  match m with
  | .call c => l.called c (s.party.call c).1
  | .receive _ frame => l.heard s.party.streams.getRecv frame
  | _ => l

end Ledger

structure Entry (recv : Recv) (received consumed : Nat) : Prop where
  holds : Holds (fun n _ => n < recv.stop) recv.assembler
  read_le : recv.assembler.bytesRead ≤ recv.stop
  receiving : recv.isReceiving = true → received = recv.stop
  reading : recv.isReceiving = true → recv.stopped = false → consumed = recv.assembler.bytesRead
  discarded : recv.isReceiving = false ∨ recv.stopped = true → consumed = received ∧
    recv.assembler.next = none ∧ recv.assembler.data = []
  open_of_reset : recv.isReceiving = false → recv.stopped = false

theorem entry_new (streamReceiveWindow : Nat) : Entry (.new streamReceiveWindow) 0 0 :=
  ⟨holds_new, le_rfl, fun _ => rfl, fun _ _ => rfl,
    fun h => (by rcases h with h | h <;> cases h), fun h => (by cases h)⟩

section Entry

variable {recv : Recv} {received consumed : Nat}

theorem Entry.ingested (h : Entry recv received consumed) (hreceiving : recv.isReceiving = true)
    (frame : StreamFrame) (payloadLen : Nat) :
    Entry (recv.ingested frame payloadLen) (received.max (frame.offset + frame.data.length))
      (if recv.stopped then received.max (frame.offset + frame.data.length) else consumed) := by
  have hstate : (recv.ingested frame payloadLen).isReceiving = true := by
    unfold Recv.isReceiving at hreceiving
    unfold Recv.ingested Recv.isReceiving
    split at hreceiving
    · rename_i hstate
      simp only [hstate]
      split_ifs <;> rfl
    · cases hreceiving
  have hgrows : recv.stop ≤ (recv.ingested frame payloadLen).stop := Nat.le_max_left _ _
  have hmono : Holds (fun n _ => n < (recv.ingested frame payloadLen).stop) recv.assembler :=
    h.holds.mono fun n _ hn => lt_of_lt_of_le hn hgrows
  have hread : (recv.ingested frame payloadLen).assembler.bytesRead = recv.assembler.bytesRead := by
    unfold Recv.ingested
    dsimp only
    split_ifs
    · rfl
    · exact (Assembler.insert_ordered h.holds.ordered _ _ _).2
  refine ⟨?_, ?_, fun _ => ?_, fun _ hstopped => ?_, ?_, fun hreset => ?_⟩
  · unfold Recv.ingested at hmono ⊢
    dsimp only at hmono ⊢
    split_ifs
    · exact hmono
    · refine hmono.insert (fun i byte hi => ?_) payloadLen
      have hlt := (List.getElem?_eq_some_iff.mp hi).1
      exact lt_of_lt_of_le (Nat.add_lt_add_left hlt _) (Nat.le_max_right _ _)
  · rw [hread]
    exact h.read_le.trans hgrows
  · rw [h.receiving hreceiving]
    rfl
  · have hstopped : recv.stopped = false := hstopped
    rw [hread, if_neg (by simp [hstopped])]
    exact h.reading hreceiving hstopped
  · rintro (hreset | hstopped)
    · cases hstate.symm.trans hreset
    · have hstopped : recv.stopped = true := hstopped
      rw [if_pos hstopped]
      refine ⟨rfl, ?_⟩
      have hsame : (recv.ingested frame payloadLen).assembler = recv.assembler := by
        simp [Recv.ingested, hstopped]
      rw [hsame]
      exact (h.discarded (.inr hstopped)).2
  · cases hstate.symm.trans hreset

theorem Entry.reset (h : Entry recv received consumed) (hstopped : recv.stopped = false)
    (errorCode finalOffset amount : Nat) :
    Entry (resetHalf recv errorCode finalOffset) amount amount :=
  ⟨h.holds.clear, h.read_le, fun h => (by cases h), fun h => (by cases h), fun _ => ⟨rfl, rfl, rfl⟩,
    fun _ => hstopped⟩

theorem Entry.stop (h : Entry recv received consumed) (hreceiving : recv.isReceiving = true) :
    Entry { recv with stopped := true, assembler := recv.assembler.clear } received received :=
  ⟨h.holds.clear, h.read_le, h.receiving, fun _ h => (by cases h), fun _ => ⟨rfl, rfl, rfl⟩,
    fun hreset => (by cases hreceiving.symm.trans hreset)⟩

theorem Entry.record (h : Entry recv received consumed) (sent : Nat) :
    Entry (recv.recordSentMaxStreamData sent) received consumed := by
  unfold Recv.recordSentMaxStreamData
  split_ifs
  · exact { h with }
  · exact h

theorem Entry.reads (h : Entry recv received consumed) (hstopped : recv.stopped = false)
    {bytes : Bytes} (hreads : Reads recv.assembler bytes assembler) :
    Entry { recv with assembler } received (consumed + bytes.length) ∧
      assembler.bytesRead ≤ recv.stop ∧ (recv.isReceiving = false → bytes = []) := by
  have hread := hreads.bytesRead.1
  obtain ⟨hplaces, hholds⟩ := h.holds.reads hreads
  have hle : assembler.bytesRead ≤ recv.stop := by
    have hread_le := h.read_le
    rcases Nat.eq_zero_or_pos bytes.length with _ | _
    · omega
    · have hlast := hplaces (bytes.length - 1) _ (List.getElem?_eq_getElem (by omega))
      omega
  have hreset : recv.isReceiving = false → bytes = [] ∧ assembler.next = none ∧
      assembler.data = [] := by
    intro hreset
    obtain ⟨-, hnext, hdata⟩ := h.discarded (.inl hreset)
    exact hreads.of_empty hnext hdata
  refine ⟨⟨hholds, hle, h.receiving, fun hreceiving _ => ?_, fun hdiscarded => ?_,
    h.open_of_reset⟩, hle, fun h => (hreset h).1⟩
  · have hconsumed := h.reading hreceiving hstopped
    dsimp only
    omega
  · rcases hdiscarded with hdiscarded | hdiscarded
    · obtain ⟨hnil, hnext, hdata⟩ := hreset hdiscarded
      rw [hnil]
      exact ⟨(h.discarded (.inl hdiscarded)).1, hnext, hdata⟩
    · cases hstopped.symm.trans hdiscarded

theorem Entry.consumed_le {n : Nat} (h : Entry recv received consumed)
    (hstopped : recv.stopped = false)
    (hle : recv.isReceiving = true → recv.assembler.bytesRead + n ≤ recv.stop)
    (hreset : recv.isReceiving = false → n = 0) : consumed + n ≤ received := by
  rcases hreceiving : recv.isReceiving with _ | _
  · rw [hreset hreceiving, (h.discarded (.inl hreceiving)).1]
    exact le_rfl
  · rw [h.reading hreceiving hstopped, h.receiving hreceiving]
    exact hle hreceiving

end Entry

structure Halves (a : Accounts) (l : Ledger) : Prop where
  le : ∀ id, l.consumed.count id ≤ l.received.count id
  each : EachRecv a (fun id => l.received.count id = 0)
    fun id recv => Entry recv (l.received.count id) (l.consumed.count id)

variable {received : Nat}

section Halves

variable {a a' : Accounts} {l : Ledger} {id : StreamId} {recv recv' : Recv}

theorem Halves.entry (h : Halves a l) (hrecv : a.recv id = some recv) :
    Entry recv (l.received.count id) (l.consumed.count id) :=
  Each.entry h.each id recv hrecv

theorem Halves.entry_fresh (h : Halves a l) (window : Nat) (id : StreamId)
    (hid : l.received.count id = 0) :
    Entry (.new window) (l.received.count id) (l.consumed.count id) := by
  have hconsumed : l.consumed.count id = 0 := Nat.le_zero.mp (hid ▸ h.le id)
  rw [hid, hconsumed]
  exact entry_new window

theorem Halves.keeps (h : Halves a l) (hkeeps : KeepsRecv a a') : Halves a' l :=
  ⟨h.le, hkeeps.each (fun id _ => h.entry_fresh _ id) h.each⟩

open Ledger

theorem Ledger.put_le (h : Halves a l) (id : StreamId) (hle : consumed ≤ received) (j : StreamId) :
    (l.put id received consumed).consumed.count j ≤
      (l.put id received consumed).received.count j := by
  rcases eq_or_ne j id with rfl | hne
  · simpa [put] using hle
  · simp only [put, Tally.set_count_of_ne _ hne]
    exact h.le j

theorem Ledger.put_of_ne (l : Ledger) {j : StreamId} (h : j ≠ id) (received consumed : Nat) :
    (l.put id received consumed).received.count j = l.received.count j ∧
      (l.put id received consumed).consumed.count j = l.consumed.count j :=
  ⟨Tally.set_count_of_ne _ h _, Tally.set_count_of_ne _ h _⟩

theorem Halves.put (h : Halves a l) (hrecv : a.recv id = some recv) (hle : consumed ≤ received)
    {entry : Option Recv} (hentry : ∀ recv', entry = some recv' → Entry recv' received consumed) :
    Halves { a with recv := Function.update a.recv id entry } (l.put id received consumed) := by
  refine ⟨put_le h id hle, Each.put h.each (by simp [hrecv]) (fun j hj hzero => ?_)
    (fun j hj y hy => ?_) fun recv' h => ?_⟩
  · rw [(l.put_of_ne hj received consumed).1]
    exact hzero
  · obtain ⟨hreceived, hconsumed⟩ := l.put_of_ne hj received consumed
    rw [hreceived, hconsumed]
    exact hy
  · simpa [Ledger.put] using hentry recv' h

theorem Halves.change (h : Halves a l) (hrecv : a.recv id = some recv)
    (hle : consumed ≤ received) (hentry : Entry recv' received consumed) :
    Halves (a.setRecv id recv') (l.put id received consumed) :=
  h.put hrecv hle fun _ h => Option.some.inj h ▸ hentry

theorem Halves.close (h : Halves a l) (hrecv : a.recv id = some recv) (hle : consumed ≤ received) :
    Halves (a.removeRecv id) (l.put id received consumed) :=
  h.put hrecv hle (by simp)

theorem Ledger.put_put (l : Ledger) (id : StreamId) (received consumed received' consumed' : Nat) :
    (l.put id received consumed).put id received' consumed' = l.put id received' consumed' := by
  simp only [put, Tally.set_set]

theorem Ledger.put_self (l : Ledger) (id : StreamId) :
    (l.put id (l.received.count id) (l.consumed.count id)).received.count = l.received.count ∧
    (l.put id (l.received.count id) (l.consumed.count id)).consumed.count = l.consumed.count :=
  ⟨Function.update_eq_self _ _, Function.update_eq_self _ _⟩

end Halves

section Steps

variable {a a' : Accounts} {q q' : Retransmits} {l : Ledger} {id : StreamId}

theorem Halves.reads (h : Halves a l) {recv : Recv} (hrecv : a.recv id = some recv)
    (hstopped : recv.stopped = false) {bytes : Bytes}
    (hreads : Reads recv.assembler bytes assembler) :
    l.consumed.count id + bytes.length ≤ l.received.count id := by
  have hentry := h.entry hrecv
  obtain ⟨-, hle, hreset⟩ := hentry.reads hstopped hreads
  refine hentry.consumed_le hstopped (fun _ => ?_) fun h => by rw [hreset h]; rfl
  rw [← hreads.bytesRead.1]
  exact hle

theorem Called.halves {c : Call} {r : Reply} (h : Called a q c r a' q') (hh : Halves a l) :
    Halves a' (l.called c r) := by
  have hkeeps := Called.keepsRecv h
  cases h with
  | readFailed id =>
    obtain ⟨hreceived, hconsumed⟩ := l.put_self id
    change Halves a (l.put id (l.received.count id) (l.consumed.count id))
    refine ⟨?_, ?_⟩ <;> rw [hreceived, hconsumed]
    · exact hh.le
    · exact hh.each
  | read _ _ _ _ _ h hstopped hreads =>
    have hentry := ((hh.entry h).reads hstopped hreads).1
    exact (hh.change h (hh.reads h hstopped hreads) hentry).keeps (keepsRecv_credit _ _)
  | readUp _ _ _ _ _ h hstopped hreads _ _ _ hroom =>
    exact (hh.close h (hh.reads h hstopped hreads)).keeps
      ((keepsRecv_allot hroom.le).same (sameStreams_credit _ _))
  | stopped _ _ _ h _ hfinal =>
    have hentry := (hh.entry h).stop (Recv.isReceiving_of_finalOffsetUnknown hfinal)
    exact (hh.change h le_rfl hentry).keeps (keepsRecv_credit _ _)
  | stoppedUp _ _ _ h _ _ _ _ hroom =>
    exact (hh.close h le_rfl).keeps
      ((keepsRecv_allot hroom.le).same (sameStreams_credit _ _))
  | stopFailed => exact hh
  | _ => exact hh.keeps hkeeps

section Frames

variable {recv : Recv} {payloadLen : Nat}

theorem Ledger.heard_stream {frame : StreamFrame} (h : a.recv frame.id = some recv)
    (hreceiving : recv.isReceiving = true) :
    l.heard a.recv (.stream frame) = l.put frame.id
      ((l.received.count frame.id).max (frame.offset + frame.data.length))
      (if recv.stopped then (l.received.count frame.id).max (frame.offset + frame.data.length)
        else l.consumed.count frame.id) :=
  noteFrame_stream h hreceiving

theorem Ledger.heard_reset {finalOffset : Nat} (h : a.recv id = some recv)
    (hreceiving : recv.isReceiving = true) :
    l.heard a.recv (.resetStream id errorCode finalOffset) = l.put id
      ((l.received.count id).max finalOffset) ((l.received.count id).max finalOffset) :=
  noteFrame_reset h hreceiving

theorem Ledger.heard_ignored (frame : StreamsFrame) (h : Ignores a frame) :
    l.heard a.recv frame = l :=
  noteFrame_ignored h

end Frames

theorem Heard.halves {payloadLen : Nat} {frame : StreamsFrame}
    (hheard : Heard a payloadLen frame a') (hh : Halves a l) :
    Halves a' (l.heard a.recv frame) := by
  cases Heard.recv hheard with
  | kept frame _ h hkeeps =>
    rw [Ledger.heard_ignored frame h]
    exact hh.keeps hkeeps
  | ingested frame _ _ h hreceiving _ _ hkeeps =>
    rw [Ledger.heard_stream h hreceiving]
    refine Halves.keeps (hh.change h ?_ ((hh.entry h).ingested hreceiving frame payloadLen)) hkeeps
    split_ifs
    · exact le_rfl
    · exact (hh.le frame.id).trans (Nat.le_max_left _ _)
  | closed _ _ _ h hreceiving hstopped hkeeps =>
    rw [Ledger.heard_stream h hreceiving, if_pos hstopped]
    exact (hh.close h le_rfl).keeps hkeeps
  | reset _ errorCode finalOffset _ _ h hreceiving _ hstopped hkeeps =>
    rw [Ledger.heard_reset h hreceiving]
    have hentry := (hh.entry h).reset hstopped errorCode finalOffset
    exact (hh.change h le_rfl (hentry _)).keeps hkeeps
  | resetClosed _ _ _ _ _ h hreceiving hkeeps =>
    rw [Ledger.heard_reset h hreceiving]
    exact (hh.close h le_rfl).keeps hkeeps

theorem Sends.halves {frames : List StreamsFrame} (h : Sends q a frames a') (hh : Halves a l) :
    Halves a' l := by
  induction h with
  | nil => exact hh
  | cons h _ ih =>
    apply ih
    cases h with
    | stream => exact ⟨hh.le, hh.each⟩
    | maxStreamData _ _ h =>
      exact ⟨hh.le, Each.set hh.each (by simp [h]) (fun _ _ h => h) (fun _ _ _ h => h)
        ((hh.entry h).record _)⟩
    | maxData | maxStreams => exact ⟨hh.le, hh.each⟩
    | _ => exact hh

end Steps

theorem halves_of_begins {a : Accounts} (h : Begins a) : Halves a .empty :=
  ⟨fun _ => le_rfl, Begins.eachRecv h (fun _ => rfl) fun _ _ => entry_new _⟩

/-- The places in the stream of what is buffered and was not read. -/
def unread (assembler : Assembler) : Finset Nat :=
  ((assembler.next.toList ++ assembler.data).toFinset.biUnion fun b =>
    Finset.Ico b.offset (b.offset + b.bytes.length)).filter (assembler.bytesRead ≤ ·)

def buffered (s : StreamsState) (id : StreamId) : Nat :=
  match s.getRecv id with
  | some recv => (unread recv.assembler).card
  | none => 0

theorem unread_subset {stop : Nat} (h : Holds (fun n _ => n < stop) assembler) :
    unread assembler ⊆ Finset.Ico assembler.bytesRead stop := by
  intro n hn
  obtain ⟨hmem, hle⟩ := Finset.mem_filter.mp hn
  obtain ⟨b, hb, hn⟩ := Finset.mem_biUnion.mp hmem
  obtain ⟨_, _⟩ := Finset.mem_Ico.mp hn
  have hplaces : Places (fun n _ => n < stop) b.offset b.bytes := by
    rw [List.mem_toFinset, List.mem_append, Option.mem_toList] at hb
    exact hb.elim (fun hb => (h.next b hb).2) (h.data b)
  have hlt := hplaces (n - b.offset) _ (List.getElem?_eq_getElem (by omega))
  exact Finset.mem_Ico.mpr ⟨hle, by omega⟩

theorem Entry.unread_le {recv : Recv} (h : Entry recv received consumed) :
    (unread recv.assembler).card ≤ received - consumed := by
  by_cases hopen : recv.isReceiving = true ∧ recv.stopped = false
  · rw [h.receiving hopen.1, h.reading hopen.1 hopen.2, ← Nat.card_Ico]
    exact Finset.card_le_card (unread_subset h.holds)
  · have hdiscarded : recv.isReceiving = false ∨ recv.stopped = true := by
      by_cases hreceiving : recv.isReceiving = true
      · exact .inr (by simpa [hreceiving] using hopen)
      · exact .inl (by simpa using hreceiving)
    obtain ⟨-, hnext, hdata⟩ := h.discarded hdiscarded
    simp [unread, hnext, hdata]

theorem Halves.buffered_le {s : StreamsState} {l : Ledger} (h : Halves (accounts s) l)
    (id : StreamId) : buffered s id ≤ l.received.count id - l.consumed.count id := by
  unfold buffered
  split
  · rename_i recv hrecv
    exact (h.entry hrecv).unread_le
  · exact Nat.zero_le _

end Quac.ReceiveLedger
