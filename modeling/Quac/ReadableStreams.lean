import Quac.SendSteps
import Quac.StreamSignals

/-!
Streams that have something to read: which operations can make one readable, and
that the application is told when they do.
-/

namespace Quac.ReadableStreams

open Identifiers Reassembly RecvHalf RecvSteps Relation SendSteps StreamAccess StreamSignals Streams
open Function StreamsState

variable {id : StreamId} {recv : Recv} {code : Nat}

/-- An ordered read would give data, or the end of the stream. -/
def Readable (s : StreamsState) (id : StreamId) : Prop :=
  ∃ chunks result chunks', Chunks.new id true s = .ok chunks ∧
    chunks.next 65536 = (.ok result, chunks')

def pieces (s : StreamsState) (id : StreamId) : Nat :=
  match s.getRecv id with
  | some recv => recv.assembler.pieces 65536
  | none => 0

/-- The receiving half, but for the limit that was last sent to the peer. -/
def half (s : StreamsState) (id : StreamId) : Option Recv :=
  (s.getRecv id).map fun recv => { recv with sentMaxStreamData := 0 }

def HasNext (recv : Recv) : Prop :=
  recv.stopped = false ∧ recv.assembler.isOrdered = true ∧
    ((recv.assembler.read 65536 true).1.isSome = true ∨ recv.state = .recv (some recv.stop) ∧
        (recv.assembler.read 65536 true).2.bytesRead = recv.stop)

theorem chunks_new_eq_ok {s : StreamsState} {chunks : Chunks} :
    Chunks.new id true s = .ok chunks ↔ ∃ recv, s.getRecv id = some recv ∧
      recv.stopped = false ∧ recv.assembler.isOrdered = true ∧
      chunks = ⟨id, true, s.removeRecv id, .readable recv, 0⟩ := by
  unfold Chunks.new
  rcases s.getRecv id with _ | recv
  · simp
  · rcases hstopped : recv.stopped with _ | _
    · rcases hordered : recv.assembler.isOrdered with _ | _
      · simp [hstopped, hordered, Assembler.ensureOrdering]
      · have hkeeps : recv.assembler.ensureOrdering true = some recv.assembler := by
          simp [Assembler.ensureOrdering, hordered]
        dsimp only
        rw [if_neg (by simp [hstopped]), hkeeps]
        constructor
        · intro h
          cases h
          exact ⟨recv, rfl, hstopped, hordered, rfl⟩
        · rintro ⟨_, heq, -, -, rfl⟩
          cases heq
          rfl
    · simp [hstopped]

theorem next_eq_ok {c : Chunks} (hstate : c.state = .readable recv) (hordered : c.ordered = true) :
    (∃ result c', c.next 65536 = (.ok result, c')) ↔
      (recv.assembler.read 65536 true).1.isSome = true ∨ recv.state = .recv (some recv.stop) ∧
          (recv.assembler.read 65536 true).2.bytesRead = recv.stop := by
  unfold Chunks.next
  rw [hstate]
  dsimp only
  rw [hordered]
  rcases recv.assembler.read 65536 true with ⟨_ | _, assembler⟩
  · rcases recv.state with size | ⟨size, _⟩
    · by_cases hend : size = some recv.stop ∧ assembler.bytesRead = recv.stop
      · simp [hend]
      · simp [hend]
    · simp
  · simp

theorem readable_iff {s : StreamsState} :
    Readable s id ↔ ∃ recv, half s id = some recv ∧ HasNext recv := by
  constructor
  · rintro ⟨chunks, result, chunks', hnew, hnext⟩
    obtain ⟨recv, hrecv, hstopped, hordered, rfl⟩ := chunks_new_eq_ok.mp hnew
    refine ⟨{ recv with sentMaxStreamData := 0 }, by simp [half, hrecv], hstopped, hordered, ?_⟩
    exact (next_eq_ok (show _ = ChunksState.readable recv from rfl) rfl).mp ⟨result, chunks', hnext⟩
  · rintro ⟨recv, hhalf, hstopped, hordered, hnext⟩
    obtain ⟨recv', hrecv, rfl⟩ := Option.map_eq_some_iff.mp hhalf
    have hnew := chunks_new_eq_ok.mpr ⟨recv', hrecv, hstopped, hordered, rfl⟩
    obtain ⟨result, chunks', heq⟩ :=
      (next_eq_ok (c := ⟨id, true, s.removeRecv id, .readable recv', 0⟩)
      rfl rfl).mpr hnext
    exact ⟨_, result, chunks', hnew, heq⟩

section Half

variable {s s' : StreamsState} {id : StreamId}

theorem readable_congr (h : half s' id = half s id) : Readable s' id ↔ Readable s id := by
  rw [readable_iff, readable_iff, h]

theorem pieces_congr (h : half s' id = half s id) : pieces s' id = pieces s id := by
  have heq : ∀ s : StreamsState,
      pieces s id = ((half s id).map fun recv => recv.assembler.pieces 65536).getD 0 := by
    intro s
    unfold pieces half
    rcases s.getRecv id with _ | _ <;> rfl
  rw [heq, heq, h]

theorem not_readable_of_none (h : half s id = none) : ¬ Readable s id := by
  rw [readable_iff, h]
  rintro ⟨recv, heq, -⟩
  cases heq

theorem not_readable_of_new (h : half s id = some (.new 0)) : ¬ Readable s id := by
  rw [readable_iff, h]
  rintro ⟨recv, heq, -, -, hnext | ⟨hstate, -⟩⟩
  · cases heq
    cases hnext
  · cases heq
    cases hstate

theorem half_of_recv (hrecv : s'.recv id = s.recv id) : half s' id = half s id := by
  unfold half getRecv
  rw [hrecv]
  rcases s.recv id with _ | _ | _ | _ <;> rfl

theorem half_setRecv (recv : Recv) (j : StreamId) : half (s.setRecv id recv) j =
      if j = id then some { recv with sentMaxStreamData := 0 } else half s j := by
  split_ifs with heq
  · subst heq
    simp [half, getRecv, setRecv, getOrInsertRecv]
  · exact half_of_recv (update_of_ne heq _ _)

theorem half_removeRecv (j : StreamId) :
    half (s.removeRecv id) j = if j = id then none else half s j := by
  split_ifs with heq
  · subst heq
    simp [half, getRecv, removeRecv]
  · exact half_of_recv (update_of_ne heq _ _)

end Half

/-- Halves kept for new streams are as good as new. -/
def FreshFree (s : StreamsState) : Prop :=
  ∀ recv ∈ s.freeRecv, ∃ window, recv = .free (.new window)

/-- Streams come and are announced; none is accepted. -/
structure Advances (s s' : StreamsState) : Prop where
  side : s'.side = s.side
  nextRemote : ∀ dir, s.nextRemote dir ≤ s'.nextRemote dir
  nextReportedRemote : s'.nextReportedRemote = s.nextReportedRemote
  announced : ∀ id, .readable id ∈ s.events → .readable id ∈ s'.events
  fresh : FreshFree s → FreshFree s'

/-- No stream gets data: its half stays, or goes, or is new. -/
structure Quiet (s s' : StreamsState) : Prop extends Advances s s' where
  halves : FreshFree s → ∀ id,
    half s' id = half s id ∨ half s' id = none ∨ half s' id = some (.new 0)

/-- A stream that gets data is announced, unless it is the peer's and not known yet. -/
structure Receives (s s' : StreamsState) : Prop extends Advances s s' where
  readable : FreshFree s → ∀ id, Readable s' id → Readable s id ∨ .readable id ∈ s'.events ∨
      id.initiator ≠ s.side ∧ s.nextRemote id.dir ≤ id.index

variable {s s' s'' : StreamsState}

theorem Advances.trans (h : Advances s s') (h' : Advances s' s'') : Advances s s'' where
  side := h'.side.trans h.side
  nextRemote dir := le_trans (h.nextRemote dir) (h'.nextRemote dir)
  nextReportedRemote := h'.nextReportedRemote.trans h.nextReportedRemote
  announced id hid := h'.announced id (h.announced id hid)
  fresh hfresh := h'.fresh (h.fresh hfresh)

theorem Advances.of_sameCounts (h : SameCounts s s') (hfresh : FreshFree s → FreshFree s') :
    Advances s s' where
  side := h.side
  nextRemote dir := le_of_eq (congrFun h.nextRemote dir).symm
  nextReportedRemote := h.nextReportedRemote
  announced id hid := by rwa [h.events]
  fresh := hfresh

namespace Quiet

theorem refl : Quiet s s :=
  ⟨.of_sameCounts .refl id, fun _ _ => .inl rfl⟩

theorem trans (h : Quiet s s') (h' : Quiet s' s'') : Quiet s s'' := by
  refine ⟨h.toAdvances.trans h'.toAdvances, fun hfresh id => ?_⟩
  rcases h'.halves (h.fresh hfresh) id with heq | hnew
  · rw [heq]
    exact h.halves hfresh id
  · exact .inr hnew

theorem readable (h : Quiet s s') (hfresh : FreshFree s) (hid : Readable s' id) :
    Readable s id ∧ pieces s' id = pieces s id := by
  rcases h.halves hfresh id with heq | hnone | hnew
  · exact ⟨(readable_congr heq).mp hid, pieces_congr heq⟩
  · exact absurd hid (not_readable_of_none hnone)
  · exact absurd hid (not_readable_of_new hnew)

theorem receives (h : Quiet s s') : Receives s s' :=
  ⟨h.toAdvances, fun hfresh _ hid => .inl (h.readable hfresh hid).1⟩

end Quiet

theorem Receives.trans (h : Receives s s') (h' : Receives s' s'') : Receives s s'' := by
  refine ⟨h.toAdvances.trans h'.toAdvances, fun hfresh id hid => ?_⟩
  rcases h'.readable (h.fresh hfresh) id hid with hread | hevent | ⟨hpeer, hnew⟩
  · rcases h.readable hfresh id hread with hread | hevent | hnew
    · exact .inl hread
    · exact .inr (.inl (h'.announced id hevent))
    · exact .inr (.inr hnew)
  · exact .inr (.inl hevent)
  · exact .inr (.inr ⟨h.side ▸ hpeer, le_trans (h.nextRemote id.dir) hnew⟩)

theorem recv_insert {remote : Bool} (h : (id.dir == .bi || remote) = true) :
    (s.insert remote id).recv = update s.recv id (some s.freeRecv.head?) ∧
      (s.insert remote id).freeRecv = s.freeRecv.tail := by
  unfold StreamsState.insert
  dsimp only
  split_ifs <;> exact ⟨rfl, rfl⟩

theorem half_insert (hfresh : FreshFree s) {remote : Bool} (h : (id.dir == .bi || remote) = true) :
    half (s.insert remote id) id = some (.new 0) := by
  unfold half getRecv
  rw [(recv_insert h).1, update_self]
  rcases hhead : s.freeRecv.head? with _ | recv
  · rfl
  · obtain ⟨_, rfl⟩ := hfresh recv (List.mem_of_head? hhead)
    rfl

/-! The operations that give no data to a stream. -/

namespace Quiet

theorem of_recv (hrecv : s'.recv = s.recv) (hfree : s'.freeRecv = s.freeRecv)
    (hside : s'.side = s.side) (hremote : ∀ dir, s.nextRemote dir ≤ s'.nextRemote dir)
    (hreported : s'.nextReportedRemote = s.nextReportedRemote)
    (hevents : ∀ id, .readable id ∈ s.events → .readable id ∈ s'.events) : Quiet s s' :=
  ⟨⟨hside, hremote, hreported, hevents, fun hfresh => by rwa [FreshFree, hfree]⟩,
    fun _ id => .inl (half_of_recv (congrFun hrecv id))⟩

theorem of_sameReceive (h : SameReceive s s') : Quiet s s' :=
  of_recv h.recv h.freeRecv h.side (fun dir => le_of_eq (congrFun h.nextRemote dir).symm)
    h.nextReportedRemote fun id hid => by rwa [h.events]

theorem insert (remote : Bool) (id : StreamId) : Quiet s (s.insert remote id) := by
  have hcounts : SameCounts s (s.insert remote id) := .insert remote id
  by_cases hopen : (id.dir == .bi || remote) = true
  · obtain ⟨hrecv, hfree⟩ := recv_insert (s := s) hopen
    refine ⟨.of_sameCounts hcounts fun hfresh recv hmem => ?_, fun hfresh j => ?_⟩
    · rw [hfree] at hmem
      exact hfresh recv (List.mem_of_mem_tail hmem)
    · rcases eq_or_ne j id with rfl | hne
      · exact .inr (.inr (half_insert hfresh hopen))
      · exact .inl (half_of_recv (by rw [hrecv, update_of_ne hne]))
  · have hsame : (s.insert remote id).recv = s.recv ∧
        (s.insert remote id).freeRecv = s.freeRecv := by
      unfold StreamsState.insert
      dsimp only
      split_ifs <;> exact ⟨rfl, rfl⟩
    refine ⟨.of_sameCounts hcounts fun hfresh => ?_, fun _ j => .inl (half_of_recv ?_)⟩
    · rwa [FreshFree, hsame.2]
    · rw [hsame.1]

theorem of_admits (h : ReflTransGen AdmitStep s s') : Quiet s s' := by
  induction h with
  | refl => exact refl
  | tail _ hstep ih =>
    refine ih.trans ?_
    cases hstep with
    | inserted id => exact insert true id
    | counted => exact of_sameReceive ⟨rfl, rfl, rfl, rfl, rfl, rfl, rfl, rfl, rfl⟩

theorem streamRecvFreed (id : StreamId) (recv : Recv) :
    Quiet s (s.streamRecvFreed id (.opened recv)) := by
  refine trans ⟨.of_sameCounts ?_ fun hfresh r hmem => ?_, fun _ j => .inl ?_⟩
    (of_admits (admits_streamFreed _ id .recv))
  · exact ⟨⟨rfl, rfl, rfl⟩, rfl, rfl, rfl, rfl⟩
  · rcases List.mem_cons.mp hmem with rfl | hmem
    · exact ⟨_, rfl⟩
    · exact hfresh r hmem
  · exact half_of_recv rfl

theorem addReadCredits (credits : Nat) : Quiet s (s.addReadCredits credits).2 := by
  refine of_sameReceive ?_
  unfold StreamsState.addReadCredits
  dsimp only
  split_ifs <;> exact ⟨rfl, rfl, rfl, rfl, rfl, rfl, rfl, rfl, rfl⟩

theorem removeRecv (id : StreamId) : Quiet s (s.removeRecv id) := by
  refine ⟨.of_sameCounts (.removeRecv id) fun h => h, fun _ j => ?_⟩
  rw [half_removeRecv]
  split_ifs
  · exact .inr (.inl rfl)
  · exact .inl rfl

theorem getRecv (h : s.getRecv id = some recv) : Quiet s (s.setRecv id recv) := by
  refine ⟨.of_sameCounts (.setRecv id recv) fun hfresh => hfresh, fun _ j => .inl ?_⟩
  rw [half_setRecv]
  split_ifs with heq
  · rw [heq, half, h]
    rfl
  · rfl

theorem openStream (closed : Bool) (dir : Dir) : Quiet s (openStream s closed dir).2 := by
  unfold StreamAccess.openStream
  split_ifs
  · exact refl
  · exact of_sameReceive ⟨rfl, rfl, rfl, rfl, rfl, rfl, rfl, rfl, rfl⟩
  · have hnext : Quiet s { s with next := update s.next dir (s.next dir + 1) } :=
      of_recv rfl rfl rfl (fun _ => le_rfl) rfl fun _ h => h
    refine (hnext.trans (insert false ⟨s.side, dir, s.next dir⟩)).trans (of_sameReceive ?_)
    exact ⟨rfl, rfl, rfl, rfl, rfl, rfl, rfl, rfl, rfl⟩

end Quiet

theorem openStream_eq_some {closed : Bool} {dir : Dir} (hfresh : FreshFree s)
    (h : openStream s closed dir = (some id, s')) :
    id.initiator = s'.side ∧ (id.dir = .bi → ¬ Readable s' id) := by
  unfold openStream at h
  split_ifs at h <;> cases h
  have hcounts : SameCounts { s with next := update s.next dir (s.next dir + 1) }
      (insert { s with next := update s.next dir (s.next dir + 1) } false
        ⟨s.side, dir, s.next dir⟩) := .insert false _
  refine ⟨hcounts.side.symm, fun hbi => not_readable_of_new ?_⟩
  rw [← half_insert (s := { s with next := update s.next dir (s.next dir + 1) }) hfresh
    (show ((⟨s.side, dir, s.next dir⟩ : StreamId).dir == .bi || false) = true by simpa using hbi)]
  exact half_of_recv rfl

namespace Quiet

theorem pushEvents (events : List StreamEvent) : Quiet s { s with events := s.events ++ events } :=
  of_recv rfl rfl rfl (fun _ => le_rfl) rfl fun _ h => List.mem_append_left _ h

theorem onStreamFrame (notify : Bool) (id : StreamId) : Quiet s (s.onStreamFrame notify id) := by
  unfold StreamsState.onStreamFrame
  split_ifs with _ _ hnew
  · exact pushEvents _
  · exact refl
  · refine of_recv rfl rfl rfl (fun dir => ?_) rfl fun _ h => h
    dsimp only
    rw [update_apply]
    split_ifs with heq
    · rw [heq]
      exact Nat.le_succ_of_le hnew
    · exact le_rfl
  · exact pushEvents _
  · exact refl

theorem of_steps (h : Steps .any s s') : Quiet s s' := by
  induction h with
  | refl => exact refl
  | tail _ hstep ih =>
    refine ih.trans ?_
    cases hstep with
    | event => exact pushEvents _
    | announced => exact onStreamFrame _ _
    | _ => exact of_sameReceive ⟨rfl, rfl, rfl, rfl, rfl, rfl, rfl, rfl, rfl⟩

theorem of_acks (h : Acks s s') : Quiet s s' := by
  have hfreed : ∀ id unackedData, Quiet s
      (streamFreed (removeSend { s with unackedData } id) id .send) := by
    intro id unackedData
    refine trans (of_sameReceive ?_) (of_admits (admits_streamFreed _ id .send))
    exact ⟨rfl, rfl, rfl, rfl, rfl, rfl, rfl, rfl, rfl⟩
  cases h with
  | refl => exact refl
  | acked => exact of_sameReceive ⟨rfl, rfl, rfl, rfl, rfl, rfl, rfl, rfl, rfl⟩
  | freed id unackedData => exact hfreed id unackedData
  | finished id unackedData ht => exact (ht ▸ hfreed id unackedData).trans (pushEvents _)

end Quiet

theorem reset_eq_ok {rs : Recv} {finalOffset received maxData : Nat}
    (h : rs.reset code finalOffset received maxData = .ok (some recv)) :
    ∃ size code, recv.state = .resetRecvd size code ∧
      recv.assembler.next = none ∧ recv.assembler.data = [] := by
  unfold Recv.reset at h
  simp only [bind, Except.bind, pure, Except.pure, throw, throwThe, MonadExceptOf.throw] at h
  repeat' split at h
  all_goals cases h
  all_goals exact ⟨finalOffset, code, rfl, rfl, rfl⟩

theorem onStreamFrame_announces (s : StreamsState) (id : StreamId) :
    .readable id ∈ (s.onStreamFrame true id).events ∨
      id.initiator ≠ s.side ∧ s.nextRemote id.dir ≤ id.index := by
  unfold onStreamFrame
  split_ifs with hlocal _ hnew
  · exact .inl (List.mem_append_right _ (List.mem_singleton_self _))
  · exact absurd rfl ‹_›
  · exact .inr ⟨hlocal, hnew⟩
  · exact .inl (List.mem_append_right _ (List.mem_singleton_self _))
  · exact absurd rfl ‹_›

namespace Receives

theorem setRecv (id : StreamId) (h : HasNext recv → Readable s id) :
    Receives s (s.setRecv id recv) := by
  refine ⟨.of_sameCounts (.setRecv id recv) fun hfresh => hfresh, fun _ j hj => .inl ?_⟩
  obtain ⟨recv', hhalf, hnext⟩ := readable_iff.mp hj
  rw [half_setRecv] at hhalf
  split_ifs at hhalf with heq
  · cases hhalf
    exact heq ▸ h hnext
  · exact readable_iff.mpr ⟨recv', hhalf, hnext⟩

open Quiet

theorem onStreamFrame (h : Advances s s') (hother : ∀ j, j ≠ id → half s' j = half s j) :
    Receives s (s'.onStreamFrame true id) := by
  refine ⟨h.trans (Quiet.onStreamFrame true id).toAdvances, fun _ j hj => ?_⟩
  rcases eq_or_ne j id with rfl | hne
  · rcases onStreamFrame_announces s' j with hevent | ⟨hpeer, hnew⟩
    · exact .inr (.inl hevent)
    · exact .inr (.inr ⟨h.side ▸ hpeer, le_trans (h.nextRemote j.dir) hnew⟩)
  · refine .inl ((readable_congr ?_).mp hj)
    rw [← hother j hne]
    unfold StreamsState.onStreamFrame
    split_ifs <;> rfl

theorem dataRecvd (n : Nat) : Quiet s { s with dataRecvd := n } :=
  .of_sameReceive ⟨rfl, rfl, rfl, rfl, rfl, rfl, rfl, rfl, rfl⟩

theorem received {frame : StreamFrame} {payloadLen : Nat} {maxData : Bool}
    (h : s.received frame payloadLen = .ok (maxData, s')) : Receives s s' := by
  unfold StreamsState.received at h
  rcases hvalid : s.validateReceiveId frame.id with e | ⟨⟩
  · rw [hvalid] at h
    cases h
  · simp only [hvalid, bind, Except.bind] at h
    split at h
    · cases h
      exact refl.receives
    · rename_i rs hrs
      split_ifs at h
      · cases h
        exact (getRecv hrs).receives
      · split at h
        · cases h
        · rename_i ingested hingest
          obtain ⟨newBytes, _, recv⟩ := ingested
          split_ifs at h with hstopped hclosed
          · cases h
            refine onStreamFrame ?_ fun j hne => ?_
            · exact ((getRecv hrs).toAdvances.trans
                (.of_sameCounts (.setRecv frame.id recv) id)).trans
                (dataRecvd _).toAdvances
            · change half ((s.setRecv frame.id rs).setRecv frame.id recv) j = half s j
              rw [half_setRecv, if_neg hne, half_setRecv, if_neg hne]
          all_goals
            have hstop : Receives s (StreamsState.setRecv (s.setRecv frame.id rs) frame.id recv) :=
              (getRecv hrs).receives.trans (setRecv frame.id fun hnext =>
                absurd hnext.1 (by simpa using hstopped))
            cases congrArg (Except.map Prod.snd) h
          · refine hstop.trans (receives ?_)
            refine Quiet.trans ?_ (.addReadCredits newBytes)
            refine Quiet.trans ?_ (.streamRecvFreed frame.id recv)
            exact (dataRecvd _).trans (.removeRecv frame.id)
          · refine hstop.trans (receives ?_)
            exact (dataRecvd _).trans (.addReadCredits newBytes)

theorem receivedReset {finalOffset : Nat} {maxData : Bool}
    (h : s.receivedReset id code finalOffset = .ok (maxData, s')) : Receives s s' := by
  unfold StreamsState.receivedReset at h
  rcases hvalid : s.validateReceiveId id with e | ⟨⟩
  · rw [hvalid] at h
    cases h
  · simp only [hvalid, bind, Except.bind] at h
    split at h
    · cases h
      exact refl.receives
    · rename_i rs hrs
      split at h
      · cases h
      · rename_i outcome hreset
        rcases outcome with _ | recv
        · cases h
          exact (getRecv hrs).receives
        · have hends : Receives s (StreamsState.setRecv (s.setRecv id rs) id recv) := by
            refine (getRecv hrs).receives.trans (setRecv id fun hnext => absurd hnext ?_)
            obtain ⟨_, _, hstate, hclear⟩ := reset_eq_ok hreset
            rintro ⟨-, -, hnext | ⟨hend, -⟩⟩
            · simp [Assembler.read, hclear, Assembler.readHeap] at hnext
            · rw [hstate] at hend
              cases hend
          have hfree : Quiet ((s.setRecv id rs).setRecv id recv)
              (if recv.stopped then
                (((s.setRecv id rs).setRecv id recv).removeRecv id).streamRecvFreed id
                  (.opened recv)
              else (s.setRecv id rs).setRecv id recv) := by
            split_ifs
            · exact (removeRecv id).trans (.streamRecvFreed id recv)
            · exact .refl
          have hall := hends.trans (hfree.trans (.onStreamFrame (!recv.stopped) id)).receives
          dsimp only at h
          by_cases hread : recv.assembler.bytesRead ≠ finalOffset
          · rw [if_pos hread] at h
            cases congrArg (Except.map Prod.snd) h
            exact hall.trans ((dataRecvd _).trans (.addReadCredits _)).receives
          · rw [if_neg hread] at h
            cases h
            exact hall

end Receives

end Quac.ReadableStreams
