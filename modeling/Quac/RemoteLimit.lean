import Mathlib.Data.Finset.Card
import Quac.Lib.Registry
import Quac.PartySteps

/-!
The limit on the streams that the peer may open.  Frames that open streams are held
against it, except that a MAX_STREAM_DATA frame for a stream without a sending half
raises `next_remote` unchecked.  Where the peer does not use that, and the user stops
no stream before the peer has opened it, the limit holds against any peer.
-/

namespace Quac.RemoteLimit

open CallAccounts FrameAccounts Identifiers Lib.Registry Lib.Transition PartySteps
open Function
open RecvHalf StreamAccess StreamAccounts StreamParty StreamTransmit Streams TransmitAccounts
open Accounts Finset

variable {recv : Recv} {maxRemote allocatedRemoteCount : Dir → Nat} {dir : Dir} {s : State}
  {n : Nat}

def Freed (a : Accounts) (dir : Dir) (index : Nat) : Prop :=
  a.recv ⟨a.side.peer, dir, index⟩ = none ∧ (dir = .uni ∨ a.send ⟨a.side.peer, dir, index⟩ = none)

instance (a : Accounts) (dir : Dir) (index : Nat) : Decidable (Freed a dir index) :=
  inferInstanceAs (Decidable (_ ∧ _))

def freed (a : Accounts) (dir : Dir) : Finset Nat :=
  (Finset.range (a.maxRemote dir)).filter (Freed a dir)

/-- The halves for streams of the peer are where the counters say. -/
structure Placed (a : Accounts) : Prop where
  recv : ∀ id : StreamId, id.initiator ≠ a.side → a.recv id ≠ none → id.index < a.maxRemote id.dir
  send : ∀ id : StreamId, id.initiator ≠ a.side → a.send id ≠ none →
    id.index < a.maxRemote id.dir ∧ id.dir = .bi
  next : ∀ dir, a.nextRemote dir ≤ a.maxRemote dir
  reported : ∀ dir, a.nextReportedRemote dir ≤ a.nextRemote dir
  /-- A receiving half that is gone, or whose end is near, belonged to an opened stream. -/
  gone : ∀ id : StreamId, id.initiator ≠ a.side → id.index < a.maxRemote id.dir →
    a.recv id = none → id.index < a.nextRemote id.dir
  ending : ∀ (id : StreamId) (recv : Recv), id.initiator ≠ a.side → a.recv id = some recv →
    recv.stopped = true ∨ recv.finalOffsetUnknown = false → id.index < a.nextRemote id.dir

structure Limited (a : Accounts) : Prop extends Placed a where
  count : ∀ dir, a.allocatedRemoteCount dir + (freed a dir).card = a.maxRemote dir

section Limited

variable {a a' : Accounts} {id : StreamId}

theorem ne_side_iff {side initiator : Side} : initiator ≠ side ↔ initiator = side.peer := by
  cases side <;> cases initiator <;> simp [Side.peer]

theorem freed_congr (hmax : a'.maxRemote = a.maxRemote)
    (h : ∀ dir index, Freed a' dir index ↔ Freed a dir index) : freed a' = freed a := by
  funext dir
  rw [freed, freed, hmax]
  exact filter_congr fun index _ => h dir index

theorem Limited.congr (h : Limited a) (hside : a'.side = a.side) (hsend : a'.send = a.send)
    (hrecv : a'.recv = a.recv) (hmax : a'.maxRemote = a.maxRemote)
    (hallocated : a'.allocatedRemoteCount = a.allocatedRemoteCount)
    (hnext : a'.nextRemote = a.nextRemote)
    (hreported : a'.nextReportedRemote = a.nextReportedRemote) : Limited a' := by
  have hfreed : freed a' = freed a := by
    refine freed_congr hmax fun dir index => ?_
    rw [Freed, Freed, hside, hsend, hrecv]
  refine ⟨⟨?_, ?_, ?_, ?_, ?_, ?_⟩, ?_⟩
  · rw [hside, hrecv, hmax]
    exact h.recv
  · rw [hside, hsend, hmax]
    exact h.send
  · rw [hnext, hmax]
    exact h.next
  · rw [hnext, hreported]
    exact h.reported
  · rw [hside, hrecv, hmax, hnext]
    exact h.gone
  · rw [hside, hrecv, hnext]
    exact h.ending
  · rw [hallocated, hfreed, hmax]
    exact h.count

theorem Limited.credit (h : Limited a) (credits : Nat) : Limited (a.credit credits) := by
  unfold Accounts.credit
  split_ifs <;> exact h.congr rfl rfl rfl rfl rfl rfl rfl

theorem Limited.setSend (h : Limited a) (half : Outgoing) (hsend : a.send id ≠ none) :
    Limited (a.setSend id half) := by
  have hnone : ∀ j, (a.setSend id half).send j = none ↔ a.send j = none :=
    fun _ => update_some_eq_none hsend
  have hfreed : freed (a.setSend id half) = freed a := by
    refine freed_congr rfl fun dir index => ?_
    rw [Freed, Freed, hnone]
    rfl
  refine ⟨{ h with send := fun j hj hsome => ?_ }, ?_⟩
  · exact h.send j hj (mt (hnone j).mpr hsome)
  · rw [hfreed]
    exact h.count

theorem Limited.announce (h : Limited a)
    (hid : id.initiator ≠ a.side → id.index < a.maxRemote id.dir) : Limited (a.announce id) := by
  unfold Accounts.announce
  split_ifs with hside
  · exact h
  have hle : ∀ dir, a.nextRemote dir ≤ update a.nextRemote id.dir
      ((a.nextRemote id.dir).max (id.index + 1)) dir := by
    intro dir
    rcases eq_or_ne dir id.dir with rfl | hne
    · rw [update_self]
      exact Nat.le_max_left _ _
    · rw [update_of_ne hne]
  refine ⟨⟨h.recv, h.send, fun dir => ?_, fun dir => ?_, fun j hj hlt hnone => ?_,
    fun j recv hj hrecv hending => ?_⟩, h.count⟩
  · rcases eq_or_ne dir id.dir with rfl | hne
    · simp only [update_self]
      exact Nat.max_le.mpr ⟨h.next _, hid hside⟩
    · simp only [update_of_ne hne]
      exact h.next dir
  · exact le_trans (h.reported dir) (hle dir)
  · exact lt_of_lt_of_le (h.gone j hj hlt hnone) (hle _)
  · exact lt_of_lt_of_le (h.ending j recv hj hrecv hending) (hle _)

theorem Limited.setRecv (h : Limited a) {recv' : Recv} (hrecv : a.recv id = some recv)
    (hending : id.initiator ≠ a.side → recv'.stopped = true ∨ recv'.finalOffsetUnknown = false →
      id.index < a.nextRemote id.dir) : Limited (a.setRecv id recv') := by
  have hnone : ∀ j, (a.setRecv id recv').recv j = none ↔ a.recv j = none :=
    fun _ => update_some_eq_none (by simp [hrecv])
  have hfreed : freed (a.setRecv id recv') = freed a := by
    refine freed_congr rfl fun dir index => ?_
    rw [Freed, Freed, hnone]
    rfl
  refine ⟨⟨fun j hj hsome => ?_, h.send, h.next, h.reported, fun j hj hlt hgone => ?_,
    fun j r hj hr hend => ?_⟩, ?_⟩
  · exact h.recv j hj (mt (hnone j).mpr hsome)
  · exact h.gone j hj hlt ((hnone j).mp hgone)
  · rcases eq_or_ne j id with rfl | hne
    · simp only [setRecv, update_self, Option.some.injEq] at hr
      subst hr
      exact hending hj hend
    · simp only [Accounts.setRecv, update_of_ne hne] at hr
      exact h.ending j r hj hr hend
  · rw [hfreed]
    exact h.count

theorem Limited.setRecv_announce (h : Limited a) {recv' : Recv}
    (hrecv : a.recv id = some recv) (hid : id.initiator ≠ a.side → id.index < a.maxRemote id.dir) :
    Limited ((a.setRecv id recv').announce id) := by
  have hannounced : Limited ((a.announce id).setRecv id recv') := by
    refine (h.announce hid).setRecv ((congrFun (announce_recv a id) id).trans hrecv) ?_
    intro hside _
    unfold Accounts.announce at hside ⊢
    split_ifs at hside ⊢ with hours
    · exact absurd hours hside
    · simp only [update_self]
      exact lt_of_lt_of_le (Nat.lt_succ_self _) (Nat.le_max_right _ _)
  refine hannounced.congr ?_ ?_ ?_ ?_ ?_ ?_ ?_ <;>
  · unfold Accounts.announce Accounts.setRecv
    split_ifs <;> rfl

theorem Placed.allot (h : Placed a) (hle : ∀ dir, a.maxRemote dir ≤ maxRemote dir) :
    Placed (a.allot maxRemote allocatedRemoteCount) := by
  refine ⟨fun j hj hsome => ?_, fun j hj hsome => ?_, fun dir => ?_, h.reported,
    fun j hj hlt hnone => ?_, fun j recv hj hrecv hending => ?_⟩
  · by_cases hnew : a.IsNew maxRemote j
    · exact hnew.2.2
    · simp only [Accounts.allot, if_neg hnew] at hsome
      exact lt_of_lt_of_le (h.recv j hj hsome) (hle _)
  · by_cases hnew : a.IsNew maxRemote j ∧ j.dir = .bi
    · exact ⟨hnew.1.2.2, hnew.2⟩
    · simp only [Accounts.allot, if_neg hnew] at hsome
      obtain ⟨hlt, hbi⟩ := h.send j hj hsome
      exact ⟨lt_of_lt_of_le hlt (hle _), hbi⟩
  · exact le_trans (h.next dir) (hle dir)
  · by_cases hnew : a.IsNew maxRemote j
    · simp [Accounts.allot, if_pos hnew] at hnone
    · simp only [Accounts.allot, if_neg hnew] at hnone
      refine h.gone j hj (lt_of_not_ge fun hge => hnew ⟨ne_side_iff.mp hj, hge, hlt⟩) hnone
  · by_cases hnew : a.IsNew maxRemote j
    · simp only [Accounts.allot, if_pos hnew, Option.some.injEq] at hrecv
      subst hrecv
      simp [Recv.new, Recv.finalOffsetUnknown] at hending
    · simp only [Accounts.allot, if_neg hnew] at hrecv
      exact h.ending j recv hj hrecv hending

theorem freed_allot (hle : ∀ dir, a.maxRemote dir ≤ maxRemote dir) :
    freed (a.allot maxRemote allocatedRemoteCount) = freed a := by
  funext dir
  ext index
  simp only [freed, mem_filter, mem_range]
  by_cases hlt : index < a.maxRemote dir
  · have hnew : ¬ a.IsNew maxRemote ⟨a.side.peer, dir, index⟩ := fun h => Nat.not_lt_of_le h.2.1 hlt
    have hsame : Freed (a.allot maxRemote allocatedRemoteCount) dir index ↔ Freed a dir index := by
      simp only [Freed, allot, hnew, false_and, if_false]
    have hmax : index < (a.allot maxRemote allocatedRemoteCount).maxRemote dir :=
      lt_of_lt_of_le hlt (hle dir)
    simp only [hsame, hlt, hmax]
  · constructor
    · rintro ⟨hmax, hrecv, -⟩
      have hnew : a.IsNew maxRemote ⟨a.side.peer, dir, index⟩ := ⟨rfl, le_of_not_gt hlt, hmax⟩
      simp only [allot, if_pos hnew] at hrecv
      cases hrecv
    · rintro ⟨hlt', -⟩
      exact absurd hlt' hlt

/-- Half of a stream goes, and what the other half leaves free is admitted again. -/
theorem Limited.free {half : StreamHalf} (h : Limited a) (hplaced : Placed a')
    (hside : a'.side = a.side)
    (hmax : a'.maxRemote = a.maxRemote)
    (hallocated : a'.allocatedRemoteCount = a.allocatedRemoteCount)
    (hid : id.initiator ≠ a.side → id.index < a.maxRemote id.dir ∧ ¬ Freed a id.dir id.index)
    (hfreed : ∀ dir index, Freed a' dir index ↔
      Freed a dir index ∨ ⟨a.side.peer, dir, index⟩ = id ∧ a'.FullyFree id half)
    (hroom : a'.Room id half maxRemote allocatedRemoteCount) :
    Limited (a'.allot maxRemote allocatedRemoteCount) := by
  refine ⟨hplaced.allot hroom.le, fun dir => ?_⟩
  rw [freed_allot hroom.le]
  change allocatedRemoteCount dir + _ = maxRemote dir
  have hcount := h.count dir
  by_cases hdir : a'.FullyFree id half ∧ dir = id.dir
  · obtain ⟨hfree, rfl⟩ := hdir
    obtain ⟨hlt, hnew⟩ := hid (hside ▸ hfree.1)
    have hinsert : freed a' id.dir = insert id.index (freed a id.dir) := by
      have hpeer : a.side.peer = id.initiator := (ne_side_iff.mp (hside ▸ hfree.1)).symm
      ext index
      simp only [freed, mem_insert, mem_filter, mem_range, hmax, hfreed, hfree,
        and_true, hpeer]
      by_cases hindex : index = id.index
      · subst hindex
        simp [hlt]
      · have hne : (⟨id.initiator, id.dir, index⟩ : StreamId) ≠ id := fun heq =>
          hindex (congrArg StreamId.index heq)
        simp only [hindex, hne, or_false, false_or]
    have hroom := hroom.freed hfree
    rw [hmax, hallocated] at hroom
    have hcard : (freed a' id.dir).card ≤ a.maxRemote id.dir := by
      rw [← hmax]
      exact (card_filter_le _ _).trans_eq (card_range _)
    have hnotMem : id.index ∉ freed a id.dir := fun hmem => hnew (mem_filter.mp hmem).2
    rw [hinsert, card_insert_of_notMem hnotMem] at hcard ⊢
    omega
  · have hsame : freed a' dir = freed a dir := by
      rw [freed, freed, hmax]
      refine filter_congr fun index _ => ?_
      rw [hfreed, or_iff_left]
      rintro ⟨heq, hfree⟩
      exact hdir ⟨hfree, congrArg StreamId.dir heq⟩
    have hroom := hroom.kept dir hdir
    rw [hmax, hallocated] at hroom
    rw [hsame]
    omega

theorem Limited.free_recv (h : Limited a) (hrecv : a.recv id = some recv)
    (hopened : id.initiator ≠ a.side → id.index < a.nextRemote id.dir)
    (hroom : (a.removeRecv id).Room id .recv maxRemote allocatedRemoteCount) :
    Limited ((a.removeRecv id).allot maxRemote allocatedRemoteCount) := by
  have hnone : ∀ j, (a.removeRecv id).recv j = none ↔ j = id ∨ a.recv j = none :=
    fun _ => update_none_eq_none
  have hplaced : Placed (a.removeRecv id) := by
    refine ⟨fun j hj hsome => ?_, h.send, h.next, h.reported, fun j hj hlt hgone => ?_,
      fun j r hj hr hend => ?_⟩
    · exact h.recv j hj fun hj => hsome ((hnone j).mpr (.inr hj))
    · rcases (hnone j).mp hgone with rfl | hgone
      · exact hopened hj
      · exact h.gone j hj hlt hgone
    · rcases eq_or_ne j id with rfl | hne
      · simp [removeRecv] at hr
      · simp only [removeRecv, update_of_ne hne] at hr
        exact h.ending j r hj hr hend
  refine h.free hplaced rfl rfl rfl (fun hside => ⟨h.recv id hside (by simp [hrecv]), ?_⟩)
    (fun dir index => ?_) hroom
  · rintro ⟨hgone, -⟩
    rw [show (⟨a.side.peer, id.dir, id.index⟩ : StreamId) = id by rw [← ne_side_iff.mp hside],
      hrecv] at hgone
    cases hgone
  · have hside : (a.removeRecv id).side = a.side := rfl
    have hsend : (a.removeRecv id).send = a.send := rfl
    rw [Freed, Freed, hnone, hside, hsend]
    by_cases heq : (⟨a.side.peer, dir, index⟩ : StreamId) = id
    · have hfree : (a.removeRecv id).FullyFree id .recv ↔
          dir = .uni ∨ a.send ⟨a.side.peer, dir, index⟩ = none := by
        rw [← heq]
        exact and_iff_right (ne_side_iff.mpr rfl)
      simp [hfree, heq, hrecv]
    · simp only [heq, false_or, false_and, or_false]

theorem Limited.free_send {out : Outgoing} (h : Limited a) (hsend : a.send id = some out)
    (hroom : (a.removeSend id).Room id .send maxRemote allocatedRemoteCount) :
    Limited ((a.removeSend id).allot maxRemote allocatedRemoteCount) := by
  have hnone : ∀ j, (a.removeSend id).send j = none ↔ j = id ∨ a.send j = none :=
    fun _ => update_none_eq_none
  have hplaced : Placed (a.removeSend id) :=
    { h with send := fun j hj hsome => h.send j hj fun hj => hsome ((hnone j).mpr (.inr hj)) }
  have hbi : id.initiator ≠ a.side → id.index < a.maxRemote id.dir ∧ id.dir = .bi := fun hside =>
    h.send id hside (by simp [hsend])
  refine h.free hplaced rfl rfl rfl (fun hside => ⟨(hbi hside).1, ?_⟩) (fun dir index => ?_) hroom
  · rintro ⟨-, huni | hgone⟩
    · cases huni.symm.trans (hbi hside).2
    · rw [show (⟨a.side.peer, id.dir, id.index⟩ : StreamId) = id by rw [← ne_side_iff.mp hside],
        hsend] at hgone
      cases hgone
  · have hside : (a.removeSend id).side = a.side := rfl
    have hrecv : (a.removeSend id).recv = a.recv := rfl
    rw [Freed, Freed, hnone, hside, hrecv]
    by_cases heq : (⟨a.side.peer, dir, index⟩ : StreamId) = id
    · have hside : id.initiator ≠ a.side := by
        rw [← heq]
        exact ne_side_iff.mpr rfl
      have hdir : dir = .bi := (congrArg StreamId.dir heq).trans (hbi hside).2
      have hfree : (a.removeSend id).FullyFree id .send ↔ a.recv id = none := by
        refine ⟨fun hfree => ?_, fun hgone => ⟨hside, .inr hgone⟩⟩
        rcases hfree.2 with huni | hgone
        · cases huni.symm.trans (hbi hside).2
        · exact hgone
      rw [hfree, heq, hsend, hdir]
      simp
    · simp only [heq, false_or, false_and, or_false]

theorem Limited.openLocal (h : Limited a) (dir : Dir) : Limited (a.openLocal dir) := by
  have hsend : ∀ j : StreamId, j.initiator ≠ a.side → (a.openLocal dir).send j = a.send j := by
    intro j hj
    refine update_of_ne ?_ _ _
    rintro rfl
    exact hj rfl
  have hrecv : ∀ j : StreamId, j.initiator ≠ a.side → (a.openLocal dir).recv j = a.recv j := by
    intro j hj
    cases dir with
    | uni => rfl
    | bi =>
      refine update_of_ne ?_ _ _
      rintro rfl
      exact hj rfl
  have hfreed : freed (a.openLocal dir) = freed a := by
    refine freed_congr rfl fun d index => ?_
    have hpeer : (⟨a.side.peer, d, index⟩ : StreamId).initiator ≠ a.side := ne_side_iff.mpr rfl
    have hside : (a.openLocal dir).side = a.side := rfl
    rw [Freed, Freed, hside, hsend _ hpeer, hrecv _ hpeer]
  refine ⟨⟨fun j hj hsome => ?_, fun j hj hsome => ?_, h.next, h.reported, fun j hj hlt hgone => ?_,
    fun j r hj hr hend => ?_⟩, ?_⟩
  · rw [hrecv j hj] at hsome
    exact h.recv j hj hsome
  · rw [hsend j hj] at hsome
    exact h.send j hj hsome
  · rw [hrecv j hj] at hgone
    exact h.gone j hj hlt hgone
  · rw [hrecv j hj] at hr
    exact h.ending j r hj hr hend
  · rw [hfreed]
    exact h.count

theorem Limited.settle (h : Limited a) (recv : Recv) (finalOffset : Nat) :
    Limited (FrameAccounts.settle a recv finalOffset) := by
  unfold FrameAccounts.settle
  split_ifs
  · refine Limited.credit ?_ _
    exact h.congr rfl rfl rfl rfl rfl rfl rfl
  · exact h

theorem Limited.ingested (h : Limited a) {frame : StreamFrame} (payloadLen : Nat)
    (hrecv : a.recv frame.id = some recv) (hstopped : recv.stopped = true) :
    Limited (FrameAccounts.ingested a frame payloadLen recv) := by
  have hset : Limited (a.setRecv frame.id (recv.ingested frame payloadLen)) :=
    h.setRecv hrecv fun hside _ => h.ending _ recv hside hrecv (.inl hstopped)
  exact hset.congr rfl rfl rfl rfl rfl rfl rfl

end Limited

/-- The condition: a MAX_STREAM_DATA frame stays within the limit on streams, and only
streams that the peer has opened are stopped. -/
def Checked (a : Accounts) : Move → Prop
  | .receive _ (.maxStreamData id _) => id.initiator ≠ a.side → id.index < a.maxRemote id.dir
  | .call (.stop id _) => id.initiator ≠ a.side → id.index < a.nextRemote id.dir
  | _ => True

section Steps

variable {a a' : Accounts} {q q' : Retransmits}

theorem Called.limited {c : Call} {r : Reply} (h : Called a q c r a' q') (ha : Limited a)
    (hchecked : Checked a (.call c)) : Limited a' := by
  cases h with
  | opened dir => exact ha.openLocal dir
  | accepted dir =>
    refine ⟨{ ha with reported := fun d => ?_ }, ha.count⟩
    have hd := ha.reported d
    rcases eq_or_ne d dir with rfl | hd'
    · simp only [update_self]
      omega
    · simp only [update_of_ne hd']
      exact hd
  | wrote _ data n half h =>
    exact (ha.setSend (half.write (data.take n)) (by simp [h])).congr rfl rfl rfl rfl rfl rfl rfl
  | finished _ _ h => exact ha.setSend _ (by simp [h])
  | reset _ _ _ h => exact ha.setSend _ (by simp [h])
  | read id _ _ recv _ h =>
    refine Limited.credit (ha.setRecv h fun hside hend => ?_) _
    exact ha.ending id recv hside h hend
  | readUp id _ _ recv _ h _ _ hends _ _ hroom =>
    refine (ha.free_recv h (fun hside => ha.ending id recv hside h (.inr ?_)) hroom).credit _
    rcases hends with ⟨hreset, -⟩ | ⟨hsize, -⟩
    · rw [← Bool.not_eq_true]
      intro hunknown
      cases hreset.symm.trans (Recv.isReceiving_of_finalOffsetUnknown hunknown)
    · simp [Recv.finalOffsetUnknown, hsize]
  | stopped _ _ _ h => exact (ha.setRecv h fun hside _ => hchecked hside).credit _
  | stoppedUp id _ recv h _ hfinal _ _ hroom =>
    exact (ha.free_recv h (fun hside => ha.ending id recv hside h (.inr hfinal)) hroom).credit _
  | receiveWindow =>
    unfold resized
    split_ifs <;> exact ha.congr rfl rfl rfl rfl rfl rfl rfl
  | maxConcurrent dir count n =>
    have hle := le_update_add a.maxRemote dir n
    refine ⟨ha.toPlaced.allot hle, fun d => ?_⟩
    rw [freed_allot hle]
    have hcount := ha.count d
    simp only [allot]
    rcases eq_or_ne d dir with rfl | hne
    · rw [update_self, update_self]
      omega
    · rw [update_of_ne hne, update_of_ne hne]
      exact hcount
  | _ => exact ha

theorem Heard.limited {payloadLen : Nat} {frame : StreamsFrame} (h : Heard a payloadLen frame a')
    (ha : Limited a) (hchecked : Checked a (.receive payloadLen frame)) : Limited a' := by
  cases h with
  | stream frame hid _ h =>
    cases h with
    | dropped => exact ha
    | buffered recv h =>
      have hrecvd : Limited { a with dataRecvd :=
        (a.dataRecvd + (frame.offset + frame.data.length - recv.stop)).min (2 ^ 64 - 1) } :=
        ha.congr rfl rfl rfl rfl rfl rfl rfl
      exact hrecvd.setRecv_announce h hid.theirs
    | discarded _ h _ _ hstopped =>
      exact (ha.ingested payloadLen h hstopped).credit _
    | closed recv h _ _ hstopped _ _ _ hroom =>
      have hrecv : (ingested a frame payloadLen recv).recv frame.id =
          some (recv.ingested frame payloadLen) := by
        simp [ingested, setRecv]
      refine ((ha.ingested payloadLen h hstopped).free_recv hrecv (fun hside => ?_) hroom).credit _
      exact ha.ending _ recv hside h (.inl hstopped)
  | resetStream _ _ finalOffset hid _ h =>
    cases h with
    | redundant => exact ha
    | reset recv h => exact (ha.setRecv_announce h hid.theirs).settle recv finalOffset
    | closed recv h _ _ hstopped _ _ hroom =>
      have hfreed := ha.free_recv h (fun hside => ha.ending _ recv hside h (.inl hstopped)) hroom
      refine Limited.settle (hfreed.announce fun hside => ?_) recv finalOffset
      exact lt_of_lt_of_le (hid.theirs hside) (hroom.le _)
  | stopSending id _ _ h =>
    exact ha.announce fun hside => (ha.send id hside (by simp [h])).1
  | maxStreamData id limit half h =>
    have hset : Limited (a.setSend id (raise half limit)) := ha.setSend _ (by simp [h])
    exact hset.announce fun hside => (ha.send id hside (by simp [h])).1
  | maxStreamDataClosed => exact ha.announce hchecked
  | maxData | maxStreams => exact ha.congr rfl rfl rfl rfl rfl rfl rfl
  | _ => exact ha

theorem Fate.limited (h : Fate a a') (ha : Limited a) : Limited a' := by
  cases h with
  | same => exact ha
  | moved h => exact ha.setSend _ (by simp [h])
  | freed h hroom => exact ha.free_send h hroom

theorem Sends.limited {frames : List StreamsFrame} (h : Sends q a frames a') (ha : Limited a) :
    Limited a' := by
  induction h with
  | nil => exact ha
  | cons h _ ih =>
    apply ih
    cases h with
    | stream _ _ h => exact ha.setSend _ (by simp [h])
    | maxStreamData id recv h =>
      refine ha.setRecv h fun hside hend => ha.ending id recv hside h ?_
      unfold Recv.recordSentMaxStreamData at hend
      split_ifs at hend <;> exact hend
    | maxData | maxStreams => exact ha.congr rfl rfl rfl rfl rfl rfl rfl
    | _ => exact ha

end Steps

theorem limited_initial (side : Side) (maxRemote : Dir → Nat) (receiveWindow streamWindow : Nat)
    (params : StreamsState.PeerLimits) :
    Limited (initialAccounts side maxRemote receiveWindow streamWindow params) := by
  refine ⟨⟨fun id _ hsome => ?_, fun id _ hsome => ?_, fun _ => Nat.zero_le _,
    fun _ => le_rfl, fun id hside hlt hnone => ?_, fun id recv _ hrecv hend => ?_⟩,
    fun dir => ?_⟩
  iterate 2
    simp only [initialAccounts, ne_eq, ite_eq_right_iff, not_forall, reduceCtorEq] at hsome
    exact hsome.1.2
  · simp only [initialAccounts, ite_eq_right_iff, reduceCtorEq, imp_false] at hnone
    exact absurd ⟨ne_side_iff.mp hside, hlt⟩ hnone
  · simp only [initialAccounts] at hrecv
    split_ifs at hrecv
    cases hrecv
    simp [Recv.new, Recv.finalOffsetUnknown] at hend
  · rw [freed, filter_eq_empty_iff.mpr]
    · rfl
    · rintro index hindex ⟨hnone, -⟩
      simp only [initialAccounts, true_and, ite_eq_right_iff, reduceCtorEq, imp_false] at hnone
      exact hnone (mem_range.mp hindex)

structure Inv (s : State) : Prop where
  tidy : Tidy s.party
  limited : Limited (accounts s.party.streams)

theorem inv_initial (h : system.initial s) : Inv s := by
  obtain ⟨side, uni, bi, sendWindow, receiveWindow, streamWindow, params, rfl⟩ := h
  obtain ⟨hfresh, heq⟩ := accounts_new side uni bi sendWindow receiveWindow streamWindow params
  refine ⟨⟨hfresh, ?_⟩, ?_⟩
  · rw [heq]
    exact (begins_initial _ _ _ _ _).ordered
  · rw [heq]
    exact limited_initial _ _ _ _ _

theorem inv_step {s' : State} {m : Move} (hs : Inv s)
    (hchecked : Checked (accounts s.party.streams) m) (h : step s m = some s') : Inv s' := by
  obtain ⟨htidy, hdone⟩ := step_done hs.tidy h
  refine ⟨htidy, ?_⟩
  cases hdone with
  | call hcalled => exact Called.limited hcalled hs.limited hchecked
  | receive _ hheard => exact Heard.limited hheard hs.limited hchecked
  | transmit _ hsends => exact Sends.limited hsends hs.limited
  | acked _ hacked => exact Fate.limited hacked.fate hs.limited
  | lost _ hlost => exact Fate.limited hlost.fate hs.limited

/-- A loop that accepts streams until there are none, with calls between any two:
the number of streams it accepts.  The list says for how long it goes on. -/
def acceptLoop (dir : Dir) (p : Party) : List (List Call) → Nat
  | [] => 0
  | calls :: rest =>
    match p.call (.acceptStream dir) with
    | (.accepted (some _), p) =>
      1 + acceptLoop dir (calls.foldl (fun p c => (p.call c).2) p) rest
    | _ => 0

/-- Of the streams the peer has opened, at most `n` are left to accept. -/
def Unaccepted (a : Accounts) (dir : Dir) (n : Nat) : Prop :=
  a.nextReportedRemote dir ≤ a.nextRemote dir ∧ a.nextRemote dir ≤ a.nextReportedRemote dir + n

theorem Unaccepted.called {a a' : Accounts} {q q' : Retransmits} {c : Call} {r : Reply}
    (ha : Unaccepted a dir n) (h : Called a q c r a' q') : Unaccepted a' dir n := by
  have hcredit : ∀ (b : Accounts) (m : Nat),
      Unaccepted b dir n → Unaccepted (b.credit m) dir n := by
    intro b m hb
    unfold credit
    split_ifs <;> exact hb
  cases h with
  | accepted d =>
    unfold Unaccepted at ha ⊢
    rcases eq_or_ne dir d with rfl | hd
    · simp only [update_self]
      omega
    · simp only [update_of_ne hd]
      exact ha
  | receiveWindow =>
    unfold resized
    split_ifs <;> exact ha
  | read | readUp | stopped | stoppedUp => exact hcredit _ _ ha
  | _ => exact ha

theorem Unaccepted.accepted {a a' : Accounts} {q q' : Retransmits} {id : StreamId}
    (ha : Unaccepted a dir n) (h : Called a q (.acceptStream dir) (.accepted (some id)) a' q') :
    ∃ m, n = m + 1 ∧ Unaccepted a' dir m := by
  cases h with
  | accepted =>
    unfold Unaccepted at ha ⊢
    simp only [update_self]
    exact ⟨n - 1, by omega, by omega⟩

theorem Unaccepted.calls {p : Party} (hp : Tidy p)
    (ha : Unaccepted (accounts p.streams) dir n) (calls : List Call) :
    Tidy (calls.foldl (fun p c => (p.call c).2) p) ∧
      Unaccepted (accounts (calls.foldl (fun p c => (p.call c).2) p).streams) dir n := by
  induction calls generalizing p with
  | nil => exact ⟨hp, ha⟩
  | cons c _ ih =>
    obtain ⟨htidy, hcalled⟩ := call_called hp (c := c) rfl
    exact ih htidy (ha.called hcalled)

/-- The loop accepts no more than what the peer had opened when it began. -/
theorem acceptLoop_le {p : Party} (hp : Tidy p)
    (ha : Unaccepted (accounts p.streams) dir n) (between : List (List Call)) :
    acceptLoop dir p between ≤ n := by
  induction between generalizing p n with
  | nil => exact Nat.zero_le _
  | cons calls _ ih =>
    unfold acceptLoop
    split
    · rename_i id p' haccept
      obtain ⟨htidy, hcalled⟩ := call_called hp haccept
      obtain ⟨m, rfl, hm⟩ := ha.accepted hcalled
      obtain ⟨htidy', hm'⟩ := hm.calls htidy calls
      have hloop := ih htidy' hm'
      omega
    · exact Nat.zero_le _

/-- The limit on the streams of the peer holds: no stream is opened or accepted beyond
it, the number of open ones does not underflow, and a loop that accepts streams comes
to an end. -/
theorem remote_limit {s : State}
    (hs : system.ReachableVia (fun s m => Checked (accounts s.party.streams) m) s) (dir : Dir) :
    s.party.streams.nextRemote dir ≤ s.party.streams.maxRemote dir ∧
    (∀ id streams, acceptStream s.party.streams dir = (some id, streams) →
      id.index < s.party.streams.maxRemote dir) ∧
    s.party.streams.allocatedRemoteCount dir ≤ s.party.streams.maxRemote dir ∧
    remoteOpenStreams s.party.streams dir +
        (s.party.streams.maxRemote dir - s.party.streams.allocatedRemoteCount dir) =
      s.party.streams.nextRemote dir ∧
    ∀ between, acceptLoop dir s.party between ≤ s.party.streams.maxRemote dir := by
  obtain ⟨htidy, hlimited⟩ : Inv s :=
    hs.invariant (fun _ => inv_initial) fun _ _ _ => inv_step
  have hnext : s.party.streams.nextRemote dir ≤ s.party.streams.maxRemote dir := hlimited.next dir
  have hreported : s.party.streams.nextReportedRemote dir ≤ s.party.streams.nextRemote dir :=
    hlimited.reported dir
  have hcount : s.party.streams.allocatedRemoteCount dir + _ = s.party.streams.maxRemote dir :=
    hlimited.count dir
  have hfreed : (freed (accounts s.party.streams) dir).card ≤ s.party.streams.nextRemote dir := by
    rw [← card_range (s.party.streams.nextRemote dir)]
    refine card_le_card fun index hindex => ?_
    obtain ⟨hlt, hgone⟩ := mem_filter.mp hindex
    exact mem_range.mpr
      (hlimited.gone ⟨_, dir, index⟩ (ne_side_iff.mpr rfl) (mem_range.mp hlt) hgone.1)
  refine ⟨hnext, fun id streams haccept => ?_, by omega, Nat.sub_add_cancel (by omega),
    fun between => ?_⟩
  · unfold acceptStream at haccept
    split_ifs at haccept with hnone <;> cases haccept
    all_goals exact lt_of_lt_of_le (Nat.lt_of_le_of_ne hreported (Ne.symm hnone)) hnext
  · refine acceptLoop_le htidy ⟨hreported, ?_⟩ between
    exact hnext.trans (Nat.le_add_left _ _)

/-- The peer opens its stream and raises the limit on it. -/
theorem opened_limited : ∃ s, system.ReachableVia
      (fun s m => Checked (accounts s.party.streams) m) s ∧
    s.party.streams.nextRemote .bi = 1 ∧
    s.party.streams.nextRemote .bi ≤ s.party.streams.maxRemote .bi := by
  have hinitial : system.ReachableVia (fun s m => Checked (accounts s.party.streams) m) server :=
    .initial ⟨_, _, _, _, _, _, _, rfl⟩
  have hopened := hinitial.step (a := Move.receive 10 (.stream ⟨⟨.client, .bi, 0⟩, 0, false, [1]⟩))
    trivial rfl
  have hraised := hopened.step (a := Move.receive 10 (.maxStreamData ⟨.client, .bi, 0⟩ 200))
    (fun _ => Nat.one_pos) rfl
  exact ⟨_, hraised, rfl, (remote_limit hraised .bi).1⟩

/-- A limit on a stream that is not admitted opens it; and a stream that is stopped
before the peer opens it is closed by its FIN without having been opened. -/
theorem unopened_unlimited :
    (∃ s, system.Reachable s ∧ s.party.streams.maxRemote .bi < s.party.streams.nextRemote .bi ∧
      acceptLoop .bi s.party [[], [], [], [], [], []] = 6) ∧
    ∃ s, system.Reachable s ∧ s.party.streams.nextRemote .uni <
      s.party.streams.maxRemote .uni - s.party.streams.allocatedRemoteCount .uni := by
  have hinitial : system.Reachable server := .initial ⟨_, _, _, _, _, _, _, rfl⟩
  constructor
  · refine hinitial.exists_of_run [.receive 10 (.maxStreamData ⟨.client, .bi, 5⟩ 200)] ?_
    exact ⟨_, rfl, by decide, rfl⟩
  · refine hinitial.exists_of_run [.call (.stop ⟨.client, .uni, 0⟩ 0),
      .receive 10 (.stream ⟨⟨.client, .uni, 0⟩, 0, true, [1]⟩)] ?_
    exact ⟨_, rfl, by decide⟩

end Quac.RemoteLimit
