import Quac.Coverage
import Quac.ReceiveLedger
import Quac.RemoteCount

/-!
The final size of a stream.  Once it is known it stays, lies beyond all data that arrived,
and a stream of which everything arrived can be read to its end, as long as no FIN is
accepted below data that arrived before it.
-/

namespace Quac.FinalSize

open CallAccounts Coverage EarlyData FrameAccounts Function Identifiers Lib.Registry
open Lib.Transition PartySteps Reassembly RecvHalf
open RemoteCount (begins_new tidy_new tidy_receivedResetCode tidy_rejected tidy_retransmitAllFor0rtt
  tidy_setPriority)
open StreamAccess StreamAccounts StreamHalves
open StreamParty hiding State step system
open StreamSession StreamTransmit Streams TransmitAccounts Recv StreamsState List Option

variable {final errorCode payloadLen : Nat}

/-- Data up to `stop`, or a final size, that does not go with what is known. -/
def Contradicts (half : Recv) (stop : Nat) (fin : Bool) : Prop :=
  (∃ final ∈ half.finalOffset, final < stop ∨ fin = true ∧ stop ≠ final) ∨
    fin = true ∧ stop < half.stop

structure Record where
  /-- Where its data lies. -/
  ranges : List (Nat × Nat)
  /-- Its final size, each time it was said. -/
  sizes : List Nat

namespace Record

def empty : Record :=
  ⟨[], []⟩

def stream (r : Record) (frame : StreamFrame) : Record :=
  let stop := frame.offset + frame.data.length
  ⟨(frame.offset, stop) :: r.ranges, if frame.fin then stop :: r.sizes else r.sizes⟩

def reset (r : Record) (finalOffset : Nat) : Record :=
  { r with sizes := finalOffset :: r.sizes }

end Record

abbrev Records : Type :=
  StreamId → Record

def heard (l : Records) (recv : StreamId → Option Recv) : StreamsFrame → Records :=
  noteFrame recv (fun _ frame => Function.update l frame.id ((l frame.id).stream frame))
    (fun id finalOffset => Function.update l id ((l id).reset finalOffset)) l

def observe (p : Party) (op : Operation) (l : Records) : Records :=
  match op with
  | .receive _ frame => heard l p.streams.getRecv frame
  -- The identifiers of our own streams are used again.
  | .zeroRttRejected => fun id => if id.initiator = p.streams.side then .empty else l id
  | _ => l

def history : System (Party × Records) Operation :=
  system.observed (fun _ => .empty) observe

structure Entry (half : Recv) (r : Record) : Prop where
  bounds : ∃ received consumed, ReceiveLedger.Entry half received consumed
  sorted : Sorted half.assembler
  stop_le : ∀ final ∈ half.finalOffset, half.stop ≤ final
  sizes : ∀ size, half.finalOffset = some size ↔ size ∈ r.sizes
  unknown : half.stopped = true → half.finalOffset = none
  has : half.isReceiving = true → half.stopped = false →
    ∀ range ∈ r.ranges, ∀ n, range.1 ≤ n → n < range.2 → Has half.assembler n

theorem entry_new (streamReceiveWindow : Nat) : Entry (.new streamReceiveWindow) .empty where
  bounds := ⟨0, 0, ReceiveLedger.entry_new _⟩
  sorted := sorted_new
  stop_le _ h := by cases h
  sizes _ := iff_of_false (fun h => by cases h) not_mem_nil
  unknown h := by cases h
  has _ _ _ h := (not_mem_nil h).elim

variable {finalOffset : Nat} {frame : StreamFrame}

section Entry

variable {half : Recv} {r : Record}

theorem finalOffset_eq_none (h : half.finalOffsetUnknown = true) : half.finalOffset = none := by
  simp only [finalOffsetUnknown, beq_iff_eq] at h
  rw [finalOffset, h]

theorem finalOffset_ingested (hreceiving : half.isReceiving = true) (frame : StreamFrame)
    (payloadLen : Nat) : (half.ingested frame payloadLen).finalOffset =
      if frame.fin && !half.stopped then some (frame.offset + frame.data.length)
      else half.finalOffset := by
  unfold isReceiving at hreceiving
  unfold Recv.ingested Recv.finalOffset
  split at hreceiving
  · rename_i hstate
    simp only [hstate]
    split_ifs <;> rfl
  · cases hreceiving

theorem Entry.ingested (h : Entry half r) (hreceiving : half.isReceiving = true)
    {received maxData : Nat}
    (hadmits : half.Admits (frame.offset + frame.data.length) frame.fin received maxData)
    (hfin : frame.fin = true → half.finalOffset = none →
      half.stop ≤ frame.offset + frame.data.length)
    (hopen : frame.fin = true → half.stopped = false) (payloadLen : Nat) :
    Entry (half.ingested frame payloadLen) (r.stream frame) := by
  obtain ⟨-, hsize, -⟩ := hadmits
  have hfinal := finalOffset_ingested hreceiving frame payloadLen
  have hstop : (half.ingested frame payloadLen).stop =
    max half.stop (frame.offset + frame.data.length) := rfl
  have hinserted : half.stopped = false → (half.ingested frame payloadLen).assembler =
      half.assembler.insert frame.offset frame.data payloadLen := by
    intro hstopped
    simp [Recv.ingested, hstopped]
  have hsorted : Sorted (half.ingested frame payloadLen).assembler := by
    rcases hstopped : half.stopped with _ | _
    · rw [hinserted hstopped]
      exact (h.sorted.insert _ _ _).1
    · simpa [Recv.ingested, hstopped] using h.sorted
  obtain ⟨_, _, hentry⟩ := h.bounds
  refine ⟨⟨_, _, hentry.ingested hreceiving frame payloadLen⟩, hsorted, fun final hmem => ?_,
    fun size => ?_, fun hstopped => ?_, fun _ hstopped range hmem n hfrom hto => ?_⟩
  · rcases hflag : frame.fin with _ | _
    · rw [hfinal, hflag] at hmem
      exact max_le (h.stop_le final hmem) (hsize final hmem).1
    · rw [hfinal, hflag, hopen hflag] at hmem
      obtain rfl : frame.offset + frame.data.length = final := some.inj hmem
      refine max_le ?_ le_rfl
      rcases hknown : half.finalOffset with _ | known
      · exact hfin hflag hknown
      · rw [(hsize known hknown).2 hflag]
        exact h.stop_le known hknown
  · rw [hfinal]
    simp only [Record.stream]
    rcases hflag : frame.fin with _ | _
    · exact h.sizes size
    · rw [hopen hflag, if_pos rfl, mem_cons]
      constructor
      · intro heq
        exact .inl (some.inj heq).symm
      · rintro (rfl | hmem)
        · rfl
        · exact congrArg some ((hsize size ((h.sizes size).mpr hmem)).2 hflag)
  · have hstopped : half.stopped = true := hstopped
    rw [hfinal, hstopped, Bool.not_true, Bool.and_false, if_neg Bool.false_ne_true]
    exact h.unknown hstopped
  · rw [hinserted hstopped, (h.sorted.insert _ _ _).2]
    rcases mem_cons.mp hmem with rfl | hmem
    · exact .inr ⟨hfrom, hto⟩
    · exact .inl (h.has hreceiving hstopped range hmem n hfrom hto)

theorem Entry.reset (h : Entry half r) (hstopped : half.stopped = false)
    {received maxData : Nat} (hadmits : half.AdmitsReset finalOffset received maxData)
    (errorCode : Nat) : Entry (resetHalf half errorCode finalOffset) (r.reset finalOffset) := by
  obtain ⟨hknown, hunknown, -⟩ := hadmits
  obtain ⟨_, _, hentry⟩ := h.bounds
  refine ⟨⟨0, 0, hentry.reset hstopped errorCode finalOffset 0⟩, h.sorted.clear,
    fun final hmem => ?_, fun size => ?_, fun hstop => ?_, fun hreceiving => ?_⟩
  · obtain rfl : finalOffset = final := some.inj hmem
    rcases hfinal : half.finalOffset with _ | final
    · exact hunknown hfinal
    · rw [← hknown final hfinal]
      exact h.stop_le final hfinal
  · rw [Record.reset, mem_cons]
    constructor
    · intro heq
      exact .inl (some.inj heq).symm
    · rintro (rfl | hmem)
      · rfl
      · exact congrArg some (hknown size ((h.sizes size).mpr hmem)).symm
  · cases hstopped.symm.trans hstop
  · cases hreceiving

theorem Entry.stop (h : Entry half r) (hfinal : half.finalOffsetUnknown = true) :
    Entry { half with stopped := true, assembler := half.assembler.clear } r := by
  obtain ⟨received, _, hentry⟩ := h.bounds
  exact ⟨⟨received, received, hentry.stop (isReceiving_of_finalOffsetUnknown hfinal)⟩,
    h.sorted.clear, h.stop_le, h.sizes, fun _ => finalOffset_eq_none hfinal, fun _ h => by cases h⟩

theorem Entry.record (h : Entry half r) (sent : Nat) :
    Entry (half.recordSentMaxStreamData sent) r := by
  obtain ⟨_, _, hentry⟩ := h.bounds
  have hbounds := hentry.record sent
  unfold recordSentMaxStreamData at hbounds ⊢
  split_ifs at hbounds ⊢
  · exact { h with bounds := ⟨_, _, hbounds⟩ }
  · exact h

theorem Entry.reads (h : Entry half r) (hstopped : half.stopped = false) {bytes : Bytes}
    {assembler : Assembler} (hreads : Reads half.assembler bytes assembler) :
    Entry { half with assembler } r := by
  obtain ⟨_, _, hentry⟩ := h.bounds
  obtain ⟨hsorted, hhas⟩ := h.sorted.reads hreads
  refine ⟨⟨_, _, (hentry.reads hstopped hreads).1⟩, hsorted, h.stop_le, h.sizes, h.unknown,
    fun hreceiving hopen range hmem n hfrom hto => ?_⟩
  exact (hhas n).mpr (h.has hreceiving hopen range hmem n hfrom hto)

theorem Entry.bytesRead_le (h : Entry half r) : half.assembler.bytesRead ≤ half.stop := by
  obtain ⟨_, _, hentry⟩ := h.bounds
  exact hentry.read_le

/-- Each read takes a byte at least, and the first that finds none is at the end. -/
theorem Entry.ends {c : Chunks} {maxLengths : List Nat} (h : Entry half r)
    (hordered : c.ordered = true) (hstate : c.state = .readable half)
    (hopen : half.stopped = false) (hfinal : half.state = .recv (some final))
    (hhas : ∀ n < final, Has half.assembler n) (hpos : ∀ k ∈ maxLengths, 0 < k)
    (hlen : final - half.assembler.bytesRead < maxLengths.length) :
    readsEnd (c.nextEach maxLengths).1 = true := by
  induction maxLengths generalizing c half with
  | nil => exact absurd hlen (Nat.not_lt_zero _)
  | cons maxLength _ ih =>
    rcases hread : half.assembler.read maxLength true with ⟨_ | chunk, assembler⟩
    · obtain ⟨-, hhas', hmissing, -⟩ := h.sorted.read hread
      have hsame : assembler.bytesRead = half.assembler.bytesRead :=
        (Assembler.read_bytesRead hread).1
      have hle : final ≤ assembler.bytesRead := by
        refine le_of_not_gt fun hlt => hmissing rfl ?_
        exact (hhas' _).mpr (hhas _ hlt)
      have hstop : half.stop ≤ final := h.stop_le final (by simp [finalOffset, hfinal])
      have hbelow := h.bytesRead_le
      have hend : half.stop = final ∧ assembler.bytesRead = half.stop := by omega
      have hnext : (c.next maxLength).1 = .ok none := by
        simp only [Chunks.next, hstate, hordered, hread, hfinal, hend.1, hend.2, and_self, if_true]
      simp only [Chunks.nextEach, readsEnd, any_cons, hnext, Bool.true_or]
    · have hbytes : 0 < chunk.bytes.length := length_pos_iff.mpr
        ((h.sorted.read hread).2.2.2 chunk rfl (hpos maxLength mem_cons_self))
      have hmoved : assembler.bytesRead = half.assembler.bytesRead + chunk.bytes.length :=
        (Assembler.read_bytesRead hread).1
      have hnext : c.next maxLength = (.ok (some chunk), { c with
          read := c.read + chunk.bytes.length
          state := .readable { half with assembler } }) := by
        simp only [Chunks.next, hstate, hordered, hread]
      have hrest := h.reads hopen (.chunk maxLength chunk hread (.done _))
      have hbelow : assembler.bytesRead ≤ final := le_trans hrest.bytesRead_le
        (h.stop_le final (by simp [finalOffset, hfinal]))
      have hends := ih (c := { c with
          read := c.read + chunk.bytes.length
          state := .readable { half with assembler } }) hrest hordered rfl hopen hfinal
        (fun n hn => ((h.sorted.read hread).2.1 n).mpr (hhas n hn))
        (fun k hk => hpos k (mem_cons_of_mem _ hk)) (by
          rw [length_cons] at hlen
          dsimp only
          omega)
      simp only [Chunks.nextEach, hnext]
      simpa only [readsEnd, any_cons, Bool.false_or] using hends

theorem Entry.readStream_ends {s : StreamsState} {id : StreamId} {maxLengths : List Nat}
    (h : Entry half r) (hget : s.getRecv id = some half)
    (hfinal : half.state = .recv (some final)) (hhas : ∀ n < final, Has half.assembler n)
    (hpos : ∀ k ∈ maxLengths, 0 < k)
    (hlen : final - half.assembler.bytesRead < maxLengths.length) (pending : Retransmits) :
    readsEnd (readStream s pending id maxLengths).1 = true := by
  have hopen : half.stopped = false := by
    rw [← Bool.not_eq_true]
    intro hstopped
    have := h.unknown hstopped
    simp [finalOffset, hfinal] at this
  have hensure : half.assembler.ensureOrdering true = some half.assembler := by
    simp [Assembler.ensureOrdering, Assembler.isOrdered, h.sorted.ordered]
  have hnew : Chunks.new id true s = .ok ⟨id, true, s.removeRecv id, .readable half, 0⟩ := by
    simp only [Chunks.new, hget]
    rw [if_neg (by simp [hopen]), hensure]
  simp only [readStream, hnew]
  exact h.ends rfl rfl hopen hfinal hhas hpos hlen

end Entry

structure Recorded (side : Side) (a : Accounts) (l : Records) : Prop where
  side_eq : a.side = side
  each : EachRecv a (fun id => l id = .empty)
    fun id half => (id.initiator = side → id.dir = .bi) ∧ Entry half (l id)

section Recorded

variable {side : Side} {a a' : Accounts} {l : Records} {id : StreamId} {half half' : Recv}

theorem Recorded.entry (h : Recorded side a l) (hid : a.recv id = some half) : Entry half (l id) :=
  (Each.entry h.each id half hid).2

theorem Recorded.keeps (h : Recorded side a l) (hkeeps : KeepsRecv a a') : Recorded side a' l := by
  refine ⟨hkeeps.side.trans h.side_eq,
    hkeeps.each (fun id hbi hempty => ⟨fun hours => ?_, ?_⟩) h.each⟩
  · exact hbi (hours.trans h.side_eq.symm)
  · rw [hempty]
    exact entry_new _

theorem Recorded.put (h : Recorded side a l) (hid : a.recv id = some half) {r : Record}
    {entry : Option Recv} (hentry : ∀ half', entry = some half' → Entry half' r) :
    Recorded side { a with recv := update a.recv id entry } (update l id r) := by
  refine ⟨h.side_eq, Each.put h.each (by simp [hid]) (fun j hj hempty => ?_) (fun j hj y hy => ?_)
    fun half' h' => ⟨(Each.entry h.each id half hid).1, ?_⟩⟩
  · rw [update_of_ne hj]
    exact hempty
  · rw [update_of_ne hj]
    exact hy
  · rw [update_self]
    exact hentry half' h'

theorem Recorded.change (h : Recorded side a l) (hid : a.recv id = some half) {r : Record}
    (hentry : Entry half' r) : Recorded side (a.setRecv id half') (update l id r) :=
  h.put hid fun _ h => some.inj h ▸ hentry

theorem Recorded.close (h : Recorded side a l) (hid : a.recv id = some half) (r : Record) :
    Recorded side (a.removeRecv id) (update l id r) :=
  h.put hid (by simp)

theorem Recorded.setRecv (h : Recorded side a l) (hid : a.recv id = some half)
    (hentry : Entry half' (l id)) : Recorded side (a.setRecv id half') l := by
  have hset := h.change hid hentry
  rwa [update_eq_self] at hset

theorem Recorded.removeRecv (h : Recorded side a l) (hid : a.recv id = some half) :
    Recorded side (a.removeRecv id) l := by
  have hclosed := h.close hid (l id)
  rwa [update_eq_self] at hclosed

end Recorded

section Steps

variable {side : Side} {a a' : Accounts} {q q' : Retransmits} {l : Records} {id : StreamId}

theorem Called.recorded {c : Call} {r : Reply} (h : Called a q c r a' q')
    (hl : Recorded side a l) : Recorded side a' l := by
  have hkeeps := Called.keepsRecv h
  cases h with
  | readFailed | stopFailed => exact hl
  | read _ _ _ _ _ h hstopped hreads =>
    exact (hl.setRecv h ((hl.entry h).reads hstopped hreads)).keeps (keepsRecv_credit _ _)
  | stopped _ _ _ h _ hfinal =>
    exact (hl.setRecv h ((hl.entry h).stop hfinal)).keeps (keepsRecv_credit _ _)
  | readUp _ _ _ _ _ h _ _ _ _ _ hroom =>
    exact (hl.removeRecv h).keeps ((keepsRecv_allot hroom.le).same (sameStreams_credit _ _))
  | stoppedUp _ _ _ h _ _ _ _ hroom =>
    exact (hl.removeRecv h).keeps ((keepsRecv_allot hroom.le).same (sameStreams_credit _ _))
  | _ => exact hl.keeps hkeeps

def FinFits (a : Accounts) (frame : StreamFrame) : Prop :=
  ∀ half, a.recv frame.id = some half → half.isReceiving = true → frame.fin = true →
    half.finalOffset = none → half.stop ≤ frame.offset + frame.data.length

theorem Heard.recorded {frame : StreamsFrame} (hheard : Heard a payloadLen frame a')
    (hfin : ∀ f, frame = .stream f → FinFits a f) (hl : Recorded side a l) :
    Recorded side a' (heard l a.recv frame) := by
  unfold heard
  cases Heard.recv hheard with
  | kept _ _ h hkeeps =>
    rw [noteFrame_ignored h]
    exact hl.keeps hkeeps
  | ingested frame half _ h hreceiving hadmits hopen hkeeps =>
    rw [noteFrame_stream h hreceiving]
    have hentry := (hl.entry h).ingested hreceiving hadmits (hfin frame rfl half h hreceiving) hopen
      payloadLen
    exact (hl.change h hentry).keeps hkeeps
  | closed _ _ _ h hreceiving _ hkeeps =>
    rw [noteFrame_stream h hreceiving]
    exact (hl.close h _).keeps hkeeps
  | reset _ errorCode _ _ _ h hreceiving hadmits hstopped hkeeps =>
    rw [noteFrame_reset h hreceiving]
    exact (hl.change h ((hl.entry h).reset hstopped hadmits errorCode)).keeps hkeeps
  | resetClosed _ _ _ _ _ h hreceiving hkeeps =>
    rw [noteFrame_reset h hreceiving]
    exact (hl.close h _).keeps hkeeps

theorem Sends.recorded {frames : List StreamsFrame} (h : Sends q a frames a')
    (hl : Recorded side a l) : Recorded side a' l := by
  induction h with
  | nil => exact hl
  | cons h _ ih =>
    apply ih
    cases h with
    | stream => exact ⟨hl.side_eq, hl.each⟩
    | maxStreamData _ _ h => exact hl.setRecv h ((hl.entry h).record _)
    | maxData | maxStreams => exact ⟨hl.side_eq, hl.each⟩
    | _ => exact hl

end Steps

section Session

variable {side : Side} {p p' : Party} {s : StreamsState} {l : Records} {id : StreamId}

theorem recorded_of_begins {a : Accounts} (h : Begins a) : Recorded a.side a fun _ => .empty :=
  ⟨rfl, Begins.eachRecv h (fun _ => rfl) fun _ hne => ⟨fun hours => absurd hours hne, entry_new _⟩⟩

theorem recorded_receivedResetCode (hfresh : Fresh s) (hl : Recorded side (accounts s) l)
    (pending : Retransmits) (id : StreamId) :
    Recorded side (accounts (receivedResetCode s pending id).2.1) l := by
  unfold receivedResetCode
  split
  · exact hl
  · rename_i recv hrecv
    split_ifs
    · exact hl
    · split
      · exact hl
      · obtain ⟨-, _, _, hroom, heq⟩ :=
          accounts_streamRecvFreed (s := s.removeRecv id) hfresh id recv
        have hget : (accounts s).recv id = some recv := by
          simp [accounts, getRecv, hrecv, getOrInsertRecv]
        rw [heq, accounts_removeRecv]
        exact (hl.removeRecv hget).keeps (keepsRecv_allot hroom.le)
  · exact hl

theorem recorded_retransmitAllFor0rtt (hl : Recorded side (accounts s) l) :
    Recorded side (accounts s.retransmitAllFor0rtt) l := by
  obtain ⟨_, _, heq⟩ := s.retransmitAllFor0rtt_rest
  rw [heq]
  exact ⟨hl.side_eq, hl.each⟩

theorem recorded_rejected (hl : Recorded side (accounts s) l) :
    Recorded side (accounts (rejected s))
    fun id => if id.initiator = s.side then .empty else l id := by
  have hside : s.side = side := hl.side_eq
  have hrecv : ∀ id half, (rejected s).getRecv id = some half →
      id.initiator ≠ s.side ∧ (accounts s).recv id = some half := by
    intro id half hid
    unfold getRecv at hid
    simp only [rejected] at hid
    split_ifs at hid with hown
    · cases hid
    · refine ⟨fun hours => hown ?_, hid⟩
      have hentry := Each.entry hl.each id half hid
      have hborn := Each.used_of_eq hl.each hid
      refine ⟨⟨hours, ?_⟩, hentry.1 (hours.trans hside)⟩
      refine lt_of_not_ge fun hle => hborn ⟨fun _ => hle, fun hne => absurd hours hne⟩
  refine ⟨hl.side_eq, fun id half hid => ?_, fun id hid => ?_, fun id hunborn => ?_⟩
  · obtain ⟨hne, hid⟩ := hrecv id half hid
    rw [if_neg hne]
    exact Each.entry hl.each id half hid
  · obtain ⟨half, hhalf⟩ := ne_none_iff_exists'.mp hid
    obtain ⟨hne, hold⟩ := hrecv id half hhalf
    rintro ⟨-, hpeer⟩
    exact Each.used_of_eq hl.each hold ⟨fun hours => absurd hours hne, hpeer⟩
  · split_ifs with hours
    · rfl
    · refine Each.new hl.each id ⟨fun h => absurd h hours, hunborn.2⟩

end Session

/-- Streams are read in order.  A STREAM frame that contradicts what is known is for a
stream that still receives and whose final size is known, and its end can be encoded. -/
def Consistent (p : Party) : Operation → Prop
  | .receive _ (.stream frame) =>
    ∀ half, p.streams.getRecv frame.id = some half →
      Contradicts half (frame.offset + frame.data.length) frame.fin →
        half.isReceiving = true ∧ half.finalOffset ≠ none ∧
          frame.offset + frame.data.length < 2 ^ 62
  | .readUnordered _ _ => False
  | _ => True

structure Inv (x : Party × Records) : Prop where
  tidy : Tidy x.1
  recorded : ∃ side, Recorded side (accounts x.1.streams) x.2

theorem inv_initial {x : Party × Records} (h : history.initial x) : Inv x := by
  obtain ⟨⟨side, uni, bi, sendWindow, receiveWindow, streamWindow, hp⟩, hempty⟩ := h
  rcases x with ⟨p, l⟩
  cases hp
  cases hempty
  have hrecorded :=
    recorded_of_begins (begins_new side uni bi sendWindow receiveWindow streamWindow)
  exact ⟨tidy_new side _ _ _ _ _, _, hrecorded.side_eq, hrecorded.each⟩

theorem inv_step {x x' : Party × Records} {op : Operation} (hx : Inv x) (hop : Consistent x.1 op)
    (h : history.step x op = some x') : Inv x' := by
  obtain ⟨hstep, hrecord⟩ := System.observed_step_eq_some h
  obtain ⟨htidy, side, hl⟩ := hx
  rcases x' with ⟨_, _⟩
  subst hrecord
  cases op with
  | call c =>
    cases hstep
    obtain ⟨htidy', hcalled⟩ := call_called htidy (c := c) rfl
    exact ⟨htidy', side, Called.recorded hcalled hl⟩
  | readUnordered => exact hop.elim
  | receivedReset id =>
    cases hstep
    exact ⟨tidy_receivedResetCode htidy id, side, recorded_receivedResetCode htidy.fresh hl _ id⟩
  | setPriority id priority =>
    cases hstep
    refine ⟨tidy_setPriority htidy id priority, side, ?_⟩
    unfold setPriority
    split
    · exact hl
    · exact ⟨hl.side_eq, hl.each⟩
  | receive =>
    simp only [system, StreamSession.step] at hstep
    split at hstep
    · rename_i party hreceive
      cases hstep
      obtain ⟨htidy', hheard, -⟩ := receive_heard htidy hreceive
      refine ⟨htidy', side, Heard.recorded hheard ?_ hl⟩
      rintro f rfl half hget - hfin hunknown
      exact le_of_not_gt fun hlt => (hop half hget (.inr ⟨hfin, hlt⟩)).2.1 hunknown
    · cases hstep
  | transmit =>
    simp only [system, StreamSession.step] at hstep
    split_ifs at hstep with hlimits
    obtain ⟨⟨_, _⟩, htransmit, rfl⟩ := map_eq_some_iff.mp hstep
    obtain ⟨htidy', hsends, -⟩ := transmit_sent htidy hlimits htransmit
    exact ⟨htidy', side, Sends.recorded hsends hl⟩
  | acked frame =>
    cases hstep
    obtain ⟨htidy', hacked, -⟩ := acked_acked htidy frame
    exact ⟨htidy', side, hl.keeps (Fate.keepsRecv hacked.fate)⟩
  | lost frame =>
    cases hstep
    obtain ⟨htidy', hlost, -⟩ := lost_lost htidy frame
    exact ⟨htidy', side, hl.keeps (Fate.keepsRecv hlost.fate)⟩
  | setParams =>
    cases hstep
    exact ⟨⟨htidy.fresh, htidy.ordered⟩, side, hl.side_eq, hl.each⟩
  | retransmitAllFor0rtt =>
    cases hstep
    exact ⟨tidy_retransmitAllFor0rtt htidy, side, recorded_retransmitAllFor0rtt hl⟩
  | zeroRttRejected =>
    obtain ⟨_, hrejected, rfl⟩ := map_eq_some_iff.mp hstep
    rw [(zeroRttRejected_eq_some_iff.mp hrejected).2]
    exact ⟨tidy_rejected htidy, side, recorded_rejected hl⟩

section Rejection

variable {side : Side} {p : Party} {l : Records} {id : StreamId} {half : Recv}

theorem Recorded.validateReceiveId (hl : Recorded side (accounts p.streams) l)
    (hget : p.streams.getRecv id = some half) : p.streams.validateReceiveId id = .ok () := by
  have hborn := Each.used_of_eq hl.each hget
  have hside : p.streams.side = side := hl.side_eq
  unfold StreamsState.validateReceiveId
  by_cases hours : p.streams.side = id.initiator
  · have hbi := (Each.entry hl.each id half hget).1 (hours.symm.trans hside)
    rw [if_pos hours, hbi]
    refine if_neg fun hle => hborn ⟨fun _ => ?_, fun hne => absurd hours.symm hne⟩
    rw [hbi]
    exact hle
  · rw [if_neg hours]
    exact if_neg fun hle => hborn ⟨fun h => absurd h.symm hours, fun _ => hle⟩

theorem receive_stream_rejected (hvalid : p.streams.validateReceiveId id = .ok ())
    (hget : p.streams.getRecv id = some half) (hid : frame.id = id)
    (hreceiving : half.isReceiving = true) (hlt : frame.offset + frame.data.length < 2 ^ 62)
    (hfinal : half.finalOffset = some final) (hsize : final < frame.offset + frame.data.length ∨
      frame.fin = true ∧ frame.offset + frame.data.length ≠ final) (payloadLen : Nat) :
    p.receive payloadLen (.stream frame) = .error ⟨.finalSizeError, ""⟩ := by
  subst hid
  have hingest : ∀ received maxData, half.ingest frame payloadLen received maxData =
      .error ⟨.finalSizeError, ""⟩ := by
    intro received maxData
    unfold ingest
    rw [if_neg (Nat.not_le_of_lt hlt), if_pos]
    simpa [hfinal, bne_iff_ne] using hsize
  simp only [Party.receive, Party.processFrame, received, hvalid, hget, hreceiving,
    hingest, bind, Except.bind, Bool.not_true, Bool.false_eq_true, if_false]

theorem receive_reset_rejected (hvalid : p.streams.validateReceiveId id = .ok ())
    (hget : p.streams.getRecv id = some half)
    (hsize : ∀ final ∈ half.finalOffset, final ≠ finalOffset)
    (hstop : half.finalOffset = none → finalOffset < half.stop) (payloadLen errorCode : Nat) :
    ∃ reason, p.receive payloadLen (.resetStream id errorCode finalOffset) =
      .error ⟨.finalSizeError, reason⟩ := by
  have hreset : ∃ reason, ∀ received maxData,
      half.reset errorCode finalOffset received maxData = .error ⟨.finalSizeError, reason⟩ := by
    rcases hfinal : half.finalOffset with _ | final
    · simp [reset, hfinal, hstop hfinal, bind, Except.bind, throw, throwThe, MonadExceptOf.throw]
    · simp [reset, hfinal, hsize final hfinal, bind, Except.bind, throw, throwThe,
        MonadExceptOf.throw]
  obtain ⟨reason, hreset⟩ := hreset
  refine ⟨reason, ?_⟩
  simp only [Party.receive, Party.processFrame, receivedReset, hvalid, hget, hreset,
    bind, Except.bind]

theorem receive_reset_admits {p' : Party}
    (hvalid : p.streams.validateReceiveId id = .ok ()) (hget : p.streams.getRecv id = some half)
    (h : p.receive payloadLen (.resetStream id errorCode finalOffset) = .ok p') :
    half.AdmitsReset finalOffset p.streams.dataRecvd p.streams.localMaxData := by
  rcases hreset : half.reset errorCode finalOffset p.streams.dataRecvd p.streams.localMaxData with
    e | result
  · have hreset' : half.reset errorCode finalOffset (p.streams.setRecv id half).dataRecvd
      (p.streams.setRecv id half).localMaxData = .error e := hreset
    simp only [Party.receive, Party.processFrame, receivedReset, hvalid, hget, hreset',
      bind, Except.bind] at h
    cases h
  · exact (reset_eq_ok_iff.mp hreset).1

end Rejection

/-- The final size of a stream is what every FIN and every reset said, it lies beyond all
data that arrived, frames that contradict it are refused, and the stream ends once all of
it arrived and is read. -/
theorem final_size_consistent {x : Party × Records}
    (hx : history.ReachableVia (fun x => Consistent x.1) x) {id : StreamId} {half : Recv}
    (hget : x.1.streams.getRecv id = some half) :
    (∀ final ∈ half.finalOffset, half.stop ≤ final) ∧
    (∀ size, half.finalOffset = some size ↔ size ∈ (x.2 id).sizes) ∧
    (∀ payloadLen frame, frame.id = id → Consistent x.1 (.receive payloadLen (.stream frame)) →
      Contradicts half (frame.offset + frame.data.length) frame.fin →
      ∃ reason, x.1.receive payloadLen (.stream frame) = .error ⟨.finalSizeError, reason⟩) ∧
    (∀ payloadLen errorCode finalOffset, Contradicts half finalOffset true →
      ∃ reason, x.1.receive payloadLen (.resetStream id errorCode finalOffset) =
        .error ⟨.finalSizeError, reason⟩) ∧
    (∀ payloadLen errorCode finalOffset p',
      x.1.receive payloadLen (.resetStream id errorCode finalOffset) = .ok p' →
        half.stop ≤ finalOffset ∧ half.assembler.bytesRead ≤ finalOffset) ∧
    ∀ final maxLengths, half.state = .recv (some final) →
      (∀ n < final, ∃ range ∈ (x.2 id).ranges, range.1 ≤ n ∧ n < range.2) →
      (∀ k ∈ maxLengths, 0 < k) → final - half.assembler.bytesRead < maxLengths.length →
        ∃ results p', x.1.call (.read id maxLengths) = (.read results, p') ∧
          .ok none ∈ results := by
  obtain ⟨-, _, hl⟩ := hx.invariant (fun _ => inv_initial) fun _ _ _ => inv_step
  have hentry := hl.entry hget
  have hvalid := hl.validateReceiveId hget
  refine ⟨hentry.stop_le, hentry.sizes, fun payloadLen frame hid hconsistent hcontradicts => ?_,
    fun payloadLen errorCode finalOffset hcontradicts => ?_,
    fun payloadLen errorCode finalOffset p' hreceive => ?_,
    fun final maxLengths hfinal harrived hpos hlen => ?_⟩
  · obtain ⟨hreceiving, hknown, hlt⟩ := hconsistent half (by rw [hid]; exact hget) hcontradicts
    obtain ⟨final, hfinal⟩ := ne_none_iff_exists'.mp hknown
    refine ⟨"", receive_stream_rejected hvalid hget hid hreceiving hlt hfinal ?_ payloadLen⟩
    rcases hcontradicts with ⟨known, hknown, hsize⟩ | ⟨hfin, hbelow⟩
    · cases hfinal.symm.trans hknown
      exact hsize
    · have := hentry.stop_le final hfinal
      exact .inr ⟨hfin, by omega⟩
  · refine receive_reset_rejected hvalid hget (fun final hfinal => ?_) (fun hunknown => ?_) _ _
    · have := hentry.stop_le final hfinal
      rcases hcontradicts with ⟨known, hknown, _⟩ | ⟨-, hbelow⟩
      · cases some.inj (hfinal.symm.trans hknown)
        omega
      · omega
    · rcases hcontradicts with ⟨_, hknown, -⟩ | ⟨-, hbelow⟩
      · cases hunknown.symm.trans hknown
      · exact hbelow
  · obtain ⟨hknown, hunknown, -⟩ := receive_reset_admits hvalid hget hreceive
    have hstop : half.stop ≤ finalOffset := by
      rcases hfinal : half.finalOffset with _ | final
      · exact hunknown hfinal
      · rw [← hknown final hfinal]
        exact hentry.stop_le final hfinal
    exact ⟨hstop, le_trans hentry.bytesRead_le hstop⟩
  · have hhas : ∀ n < final, Has half.assembler n := by
      intro n hn
      obtain ⟨range, hmem, hfrom, hto⟩ := harrived n hn
      refine hentry.has (by simp [isReceiving, hfinal]) ?_ range hmem n hfrom hto
      rw [← Bool.not_eq_true]
      intro hstopped
      have := hentry.unknown hstopped
      simp [finalOffset, hfinal] at this
    have hends := hentry.readStream_ends hget hfinal hhas hpos hlen x.1.pending
    refine ⟨_, _, rfl, ?_⟩
    obtain ⟨_, hmem, hend⟩ := any_eq_true.mp hends
    split at hend
    · exact hmem
    · cases hend

def server : Party :=
  ⟨.new .server 1 1 100 100 100, .empty⟩

def upload : StreamId :=
  ⟨.client, .uni, 0⟩

def consistentNow (p : Party) : Operation → Bool
  | .receive _ (.stream frame) =>
    (p.streams.getRecv frame.id).all fun half =>
      half.finalOffset.all (frame.offset + frame.data.length ≤ ·) &&
        (!frame.fin || half.finalOffset.isNone &&
          decide (half.stop ≤ frame.offset + frame.data.length))
  | .readUnordered _ _ => false
  | _ => true

theorem consistent_of_consistentNow {p : Party} {op : Operation} (h : consistentNow p op = true) :
    Consistent p op := by
  unfold consistentNow at h
  split at h
  · intro half hget hcontradicts
    simp only [hget, all_some, Bool.and_eq_true, Bool.or_eq_true, Bool.not_eq_true',
      decide_eq_true_eq, isNone_iff_eq_none] at h
    obtain ⟨hle, hfin⟩ := h
    rcases hcontradicts with ⟨_, hfinal, hsize⟩ | ⟨hflag, hlt⟩
    · rw [hfinal] at hle hfin
      simp only [all_some, decide_eq_true_eq, reduceCtorEq, false_and, or_false] at hle hfin
      rcases hsize with _ | ⟨hflag, -⟩
      · omega
      · cases hfin.symm.trans hflag
    · rcases hfin with hfin | ⟨-, _⟩
      · cases hfin.symm.trans hflag
      · omega
  · cases h
  · unfold Consistent
    split <;> simp_all

/-- The end of an upload arrives before its beginning. -/
theorem reordered_consistent : ∃ x half, history.ReachableVia (fun x => Consistent x.1) x ∧
      x.1.streams.getRecv upload = some half ∧ half.finalOffset = some 4 ∧
      4 ∈ (x.2 upload).sizes ∧
      ∃ results p', x.1.call (.read upload [8, 8, 8, 8, 8]) = (.read results, p') ∧
        .ok none ∈ results := by
  have hreach : history.ReachableVia (fun x => Consistent x.1) _ :=
    .of_runChecked (fun _ _ => consistent_of_consistentNow)
      (.initial ⟨⟨_, _, _, _, _, _, rfl⟩, rfl⟩)
    (rfl : history.runChecked (fun x => consistentNow x.1) (server, fun _ => .empty)
      [.receive 10 (.stream ⟨upload, 2, true, [3, 4]⟩),
        .receive 10 (.stream ⟨upload, 0, false, [1, 2]⟩)] = some _)
  obtain ⟨-, hsizes, -, -, -, hends⟩ := final_size_consistent hreach
    (show StreamsState.getRecv _ upload = some _ from rfl)
  refine ⟨_, _, hreach, rfl, rfl, (hsizes 4).mp rfl,
    hends 4 _ rfl (fun n hn => ?_) (by decide) (by decide)⟩
  by_cases hlow : n < 2
  · exact ⟨(0, 2), by decide, Nat.zero_le _, hlow⟩
  · exact ⟨(2, 4), by decide, le_of_not_gt hlow, hn⟩

/-- A FIN below data that arrived is accepted: the final size is below the highest offset,
the stream never ends, and a reset with the same final size makes the count of received
data wrap around.  A stream that was reset accepts data beyond its final size.  A stream
that is read in order and then out of order returns the same bytes twice, so that more
was read than its final size. -/
theorem earlyFin_inconsistent :
    (∃ p half, system.Reachable p ∧ p.streams.getRecv upload = some half ∧
      half.finalOffset = some 4 ∧ half.stop = 6 ∧
      (p.call (.read upload [8, 8])).1 =
        .read [.ok (some ⟨0, [1, 2, 3, 4, 5, 6]⟩), .error .blocked] ∧
      ∃ p', p.receive 0 (.resetStream upload 0 4) = .ok p' ∧ p'.streams.dataRecvd = 2 ^ 64 - 1) ∧
    (∃ p half, system.Reachable p ∧ p.streams.getRecv upload = some half ∧
      half.finalOffset = some 4 ∧ ∃ p', p.receive 0 (.stream ⟨upload, 4, true, [5, 6]⟩) = .ok p') ∧
    ∃ p half, system.Reachable p ∧ p.streams.getRecv upload = some half ∧
      half.finalOffset = none ∧ half.stop = 4 ∧ half.assembler.bytesRead = 6 ∧
      ∃ p', p.receive 0 (.resetStream upload 0 4) = .ok p' := by
  have hinitial : system.Reachable server := .initial ⟨_, _, _, _, _, _, rfl⟩
  refine ⟨?_, ?_, ?_⟩
  · refine hinitial.exists₂_of_run [.receive 10 (.stream ⟨upload, 0, false, [1, 2, 3, 4, 5, 6]⟩),
      .receive 10 (.stream ⟨upload, 4, true, []⟩)] ?_
    exact ⟨_, _, rfl, rfl, rfl, rfl, rfl, _, rfl, rfl⟩
  · refine hinitial.exists₂_of_run [.receive 10 (.stream ⟨upload, 0, false, [1, 2]⟩),
      .receive 10 (.resetStream upload 0 4)] ?_
    exact ⟨_, _, rfl, rfl, rfl, _, rfl⟩
  · refine hinitial.exists₂_of_run [.receive 10 (.stream ⟨upload, 0, false, [1, 2, 3, 4]⟩),
      .receive 10 (.stream ⟨upload, 0, false, [1, 2]⟩), .call (.read upload [8]),
      .readUnordered upload [8]] ?_
    exact ⟨_, _, rfl, rfl, rfl, rfl, rfl, _, rfl⟩

end Quac.FinalSize
