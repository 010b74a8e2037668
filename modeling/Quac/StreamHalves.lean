import Quac.Lib.Registry
import Quac.PartySteps

/-!
What holds of every sending or of every receiving half.  A half comes into being with
its stream, and a stream that is closed does not come back.
-/

namespace Quac.StreamHalves

open CallAccounts FrameAccounts Identifiers Lib.Registry PartySteps RecvHalf SendHalf
open StreamAccounts StreamParty StreamTransmit Streams Accounts

/-- Every sending half meets `P`, and every stream that never was meets `N`. -/
def EachSend (a : Accounts) (N : StreamId → Prop) (P : StreamId → Outgoing → Prop) : Prop :=
  Each a.send a.Unborn N P

def EachRecv (a : Accounts) (N : StreamId → Prop) (P : StreamId → Recv → Prop) : Prop :=
  Each a.recv a.Unborn N P

variable {a : Accounts} {N : StreamId → Prop} {maxRemote allocatedRemoteCount : Dir → Nat}

structure SameStreams (a a' : Accounts) : Prop where
  side : a'.side = a.side
  send : a'.send = a.send
  recv : a'.recv = a.recv
  next : a'.next = a.next
  maxRemote : a'.maxRemote = a.maxRemote

variable {a' : Accounts}

theorem SameStreams.unborn (h : SameStreams a a') : a'.Unborn = a.Unborn := by
  funext id
  rw [Accounts.Unborn, Accounts.Unborn, h.side, h.next, h.maxRemote]

theorem SameStreams.trans {a'' : Accounts} (h : SameStreams a a') (h' : SameStreams a' a'') :
    SameStreams a a'' :=
  ⟨h'.side.trans h.side, h'.send.trans h.send, h'.recv.trans h.recv, h'.next.trans h.next,
    h'.maxRemote.trans h.maxRemote⟩

theorem sameStreams_credit (a : Accounts) (n : Nat) : SameStreams a (a.credit n) := by
  unfold credit
  split_ifs <;> exact ⟨rfl, rfl, rfl, rfl, rfl⟩

theorem sameStreams_announce (a : Accounts) (id : StreamId) : SameStreams a (a.announce id) := by
  unfold announce
  split_ifs <;> exact ⟨rfl, rfl, rfl, rfl, rfl⟩

theorem sameStreams_resized (a : Accounts) (receiveWindow : Nat) :
    SameStreams a (CallAccounts.resized a receiveWindow) := by
  unfold CallAccounts.resized
  split_ifs <;> exact ⟨rfl, rfl, rfl, rfl, rfl⟩

theorem sameStreams_settle (a : Accounts) (recv : Recv) (finalOffset : Nat) :
    SameStreams a (FrameAccounts.settle a recv finalOffset) := by
  unfold FrameAccounts.settle
  split_ifs
  · refine SameStreams.trans ?_ (sameStreams_credit _ _)
    exact ⟨rfl, rfl, rfl, rfl, rfl⟩
  · exact ⟨rfl, rfl, rfl, rfl, rfl⟩

section Send

variable {P : StreamId → Outgoing → Prop}

theorem EachSend.openLocal (h : EachSend a N P)
    (hnew : ∀ id, id.initiator = a.side → N id → P id (.new (a.maxSendData id)))
    (dir : Dir) : EachSend (a.openLocal dir) N P := by
  refine Each.grow h (fun j => unborn_of_openLocal) fun j half hj => ?_
  rcases eq_or_ne j ⟨a.side, dir, a.next dir⟩ with rfl | hne
  · simp only [Accounts.openLocal, Function.update_self, Option.some.injEq] at hj
    subst hj
    exact .inr ⟨unborn_next a dir, not_unborn_openLocal a dir, hnew _ rfl⟩
  · exact .inl ((Function.update_of_ne hne _ _).symm.trans hj)

theorem EachSend.allot (h : EachSend a N P)
    (hnew : ∀ id, id.dir = .bi → N id → P id (.new (a.maxSendData id)))
    (hle : ∀ dir, a.maxRemote dir ≤ maxRemote dir) :
    EachSend (a.allot maxRemote allocatedRemoteCount) N P := by
  refine Each.grow h (fun j => unborn_of_allot hle) fun j half hj => ?_
  by_cases hadmitted : a.IsNew maxRemote j ∧ j.dir = .bi
  · simp only [Accounts.allot, if_pos hadmitted, Option.some.injEq] at hj
    subst hj
    exact .inr ⟨hadmitted.1.unborn, hadmitted.1.not_unborn_allot, hnew j hadmitted.2⟩
  · simp only [Accounts.allot, if_neg hadmitted] at hj
    exact .inl hj

theorem EachSend.same (h : EachSend a N P) (hsame : SameStreams a a') :
    EachSend a' N P := by
  unfold EachSend
  rw [hsame.send, hsame.unborn]
  exact h

end Send

structure SameSending (a a' : Accounts) : Prop where
  streams : SameStreams { a with recv := a'.recv } a'
  maxSendData : a'.maxSendData = a.maxSendData
  max : a'.max = a.max
  maxData : a'.maxData = a.maxData
  dataSent : a'.dataSent = a.dataSent

theorem SameSending.trans {a'' : Accounts} (h : SameSending a a') (h' : SameSending a' a'') :
    SameSending a a'' :=
  ⟨⟨h'.streams.side.trans h.streams.side, h'.streams.send.trans h.streams.send, rfl,
    h'.streams.next.trans h.streams.next, h'.streams.maxRemote.trans h.streams.maxRemote⟩,
    h'.maxSendData.trans h.maxSendData, h'.max.trans h.max, h'.maxData.trans h.maxData,
    h'.dataSent.trans h.dataSent⟩

theorem sameSending_setRecv (a : Accounts) (id : StreamId) (recv : Recv) :
    SameSending a (a.setRecv id recv) :=
  ⟨⟨rfl, rfl, rfl, rfl, rfl⟩, rfl, rfl, rfl, rfl⟩

theorem sameSending_ingested (a : Accounts) (frame : StreamFrame) (payloadLen : Nat) (recv : Recv) :
    SameSending a (ingested a frame payloadLen recv) :=
  ⟨⟨rfl, rfl, rfl, rfl, rfl⟩, rfl, rfl, rfl, rfl⟩

theorem sameSending_credit (a : Accounts) (n : Nat) : SameSending a (a.credit n) := by
  unfold credit
  split_ifs <;> exact ⟨⟨rfl, rfl, rfl, rfl, rfl⟩, rfl, rfl, rfl, rfl⟩

theorem sameSending_announce (a : Accounts) (id : StreamId) : SameSending a (a.announce id) := by
  unfold announce
  split_ifs <;> exact ⟨⟨rfl, rfl, rfl, rfl, rfl⟩, rfl, rfl, rfl, rfl⟩

theorem sameSending_settle (a : Accounts) (recv : Recv) (finalOffset : Nat) :
    SameSending a (settle a recv finalOffset) := by
  unfold settle credit
  split_ifs <;> exact ⟨⟨rfl, rfl, rfl, rfl, rfl⟩, rfl, rfl, rfl, rfl⟩

/-- The side sends nothing, and at most streams of the peer are admitted. -/
inductive Rests (a : Accounts) : Accounts → Prop
  | same {a' : Accounts} (h : SameSending a a') : Rests a a'
  | allot {a' : Accounts} (maxRemote allocatedRemoteCount : Dir → Nat)
      (hle : ∀ dir, a.maxRemote dir ≤ maxRemote dir)
      (h : SameSending (a.allot maxRemote allocatedRemoteCount) a') : Rests a a'

variable {P : StreamId → Outgoing → Prop}

section Rests

variable {a' : Accounts} {q q' : Retransmits} {c : Call} {r : Reply} {frame : StreamFrame}
  {id : StreamId}
  {payloadLen errorCode finalOffset : Nat}

theorem SameSending.refl (a : Accounts) : SameSending a a :=
  ⟨⟨rfl, rfl, rfl, rfl, rfl⟩, rfl, rfl, rfl, rfl⟩

theorem Received.rests (h : Received a frame payloadLen a') : Rests a a' := by
  cases h with
  | dropped => exact .same (.refl a)
  | buffered recv =>
    exact .same ((sameSending_ingested a frame payloadLen recv).trans (sameSending_announce _ _))
  | discarded recv =>
    exact .same ((sameSending_ingested a frame payloadLen recv).trans (sameSending_credit _ _))
  | closed _ _ _ _ _ _ maxRemote allocated hroom =>
    refine .allot maxRemote allocated hroom.le (SameSending.trans ?_ (sameSending_credit _ _))
    exact ⟨⟨rfl, rfl, rfl, rfl, rfl⟩, rfl, rfl, rfl, rfl⟩

theorem ReceivedReset.rests (h : ReceivedReset a id errorCode finalOffset a') : Rests a a' := by
  cases h with
  | redundant => exact .same (.refl a)
  | reset =>
    exact .same (((sameSending_setRecv a id _).trans (sameSending_announce _ _)).trans
      (sameSending_settle _ _ _))
  | closed _ _ _ _ _ maxRemote allocated hroom =>
    refine .allot maxRemote allocated hroom.le (SameSending.trans ?_ (sameSending_settle _ _ _))
    refine SameSending.trans ?_ (sameSending_announce _ _)
    exact ⟨⟨rfl, rfl, rfl, rfl, rfl⟩, rfl, rfl, rfl, rfl⟩

/-- The calls that send on no stream and open none. -/
def Call.Receives : Call → Prop
  | .read _ _ | .stop _ _ | .setReceiveWindow _ | .setMaxConcurrentStreams _ _ => True
  | _ => False

theorem Called.rests (h : Called a q c r a' q') (hc : Call.Receives c) : Rests a a' := by
  cases h with
  | readFailed | stopFailed => exact .same (.refl a)
  | read id | stopped id =>
    exact .same ((sameSending_setRecv a id _).trans (sameSending_credit _ _))
  | readUp _ _ _ _ _ _ _ _ _ maxRemote allocated hroom =>
    refine .allot maxRemote allocated hroom.le (SameSending.trans ?_ (sameSending_credit _ _))
    exact ⟨⟨rfl, rfl, rfl, rfl, rfl⟩, rfl, rfl, rfl, rfl⟩
  | stoppedUp _ _ _ _ _ _ maxRemote allocated hroom =>
    refine .allot maxRemote allocated hroom.le (SameSending.trans ?_ (sameSending_credit _ _))
    exact ⟨⟨rfl, rfl, rfl, rfl, rfl⟩, rfl, rfl, rfl, rfl⟩
  | receiveWindow =>
    unfold resized
    split_ifs <;> exact .same ⟨⟨rfl, rfl, rfl, rfl, rfl⟩, rfl, rfl, rfl, rfl⟩
  | maxConcurrent dir _ n =>
    exact .allot _ _ (le_update_add a.maxRemote dir n) (.refl _)
  | _ => exact hc.elim

theorem EachSend.rests (h : EachSend a N P) (hrests : Rests a a')
    (hnew : ∀ id, id.dir = .bi → N id → P id (.new (a.maxSendData id))) : EachSend a' N P := by
  cases hrests with
  | same h' => exact EachSend.same (a := { a with recv := a'.recv }) h h'.streams
  | allot maxRemote allocated hle h' =>
    have hallot : EachSend (a.allot maxRemote allocated) N P := h.allot hnew hle
    exact EachSend.same (a := { a.allot maxRemote allocated with recv := a'.recv }) hallot
      h'.streams

end Rests

section Recv

variable {P : StreamId → Recv → Prop}

theorem EachRecv.openLocal (h : EachRecv a N P)
    (hnew : ∀ id, id.dir = .bi → N id → P id (.new a.streamReceiveWindow)) (dir : Dir) :
    EachRecv (a.openLocal dir) N P := by
  refine Each.grow h (fun j => unborn_of_openLocal) fun j recv hj => ?_
  rcases eq_or_ne j ⟨a.side, dir, a.next dir⟩ with rfl | hne
  · rcases openLocal_recv_self hj with ⟨hdir, rfl⟩ | hr
    · exact .inr ⟨unborn_next a dir, not_unborn_openLocal a dir, hnew _ hdir⟩
    · exact .inl hr
  · rw [openLocal_recv_of_ne hne] at hj
    exact .inl hj

theorem EachRecv.allot (h : EachRecv a N P)
    (hnew : ∀ id, id.initiator ≠ a.side → N id → P id (.new a.streamReceiveWindow))
    (hle : ∀ dir, a.maxRemote dir ≤ maxRemote dir) :
    EachRecv (a.allot maxRemote allocatedRemoteCount) N P := by
  refine Each.grow h (fun j => unborn_of_allot hle) fun j recv hj => ?_
  by_cases hadmitted : a.IsNew maxRemote j
  · simp only [Accounts.allot, if_pos hadmitted, Option.some.injEq] at hj
    subst hj
    exact .inr ⟨hadmitted.unborn, hadmitted.not_unborn_allot, hnew j hadmitted.ne_side⟩
  · simp only [Accounts.allot, if_neg hadmitted] at hj
    exact .inl hj

theorem EachRecv.same (h : EachRecv a N P) (hsame : SameStreams a a') :
    EachRecv a' N P := by
  unfold EachRecv
  rw [hsame.recv, hsame.unborn]
  exact h

end Recv

theorem Begins.eachSend (h : Begins a) (hN : ∀ id, N id)
    (hP : ∀ id, id.dir = .bi → P id (.new (a.maxSendData id))) : EachSend a N P := by
  refine .of_used (fun id half hid => ?_) hN
  obtain ⟨hborn, hdir, rfl⟩ := h.send id half hid
  exact ⟨hborn, hP id hdir⟩

theorem Begins.eachRecv {P : StreamId → Recv → Prop} (h : Begins a) (hN : ∀ id, N id)
    (hP : ∀ id, id.initiator ≠ a.side → P id (.new a.streamReceiveWindow)) : EachRecv a N P := by
  refine .of_used (fun id recv hid => ?_) hN
  obtain ⟨hborn, hside, rfl⟩ := h.recv id recv hid
  exact ⟨hborn, hP id hside⟩

/-- The receiving halves of `a` are left alone, and those that are new are as they begin. -/
structure KeepsRecv (a a' : Accounts) : Prop where
  side : a'.side = a.side
  each : ∀ {N : StreamId → Prop} {P : StreamId → Recv → Prop},
    (∀ id, (id.initiator = a.side → id.dir = .bi) → N id → P id (.new a.streamReceiveWindow)) →
      EachRecv a N P → EachRecv a' N P

section KeepsRecv

variable {a' : Accounts}

theorem keepsRecv_refl (a : Accounts) : KeepsRecv a a :=
  ⟨rfl, fun _ h => h⟩

theorem KeepsRecv.same {a'' : Accounts} (h : KeepsRecv a a') (hsame : SameStreams a' a'') :
    KeepsRecv a a'' :=
  ⟨hsame.side.trans h.side, fun hnew heach => (h.each hnew heach).same hsame⟩

theorem keepsRecv_of_same (h : SameStreams a a') : KeepsRecv a a' :=
  (keepsRecv_refl a).same h

theorem keepsRecv_allot (hle : ∀ dir, a.maxRemote dir ≤ maxRemote dir) :
    KeepsRecv a (a.allot maxRemote allocatedRemoteCount) :=
  ⟨rfl, fun hnew h => h.allot (fun id hne => hnew id fun hours => absurd hours hne) hle⟩

theorem keepsRecv_openLocal (a : Accounts) (dir : Dir) : KeepsRecv a (a.openLocal dir) :=
  ⟨rfl, fun hnew h => h.openLocal (fun id hbi => hnew id fun _ => hbi) dir⟩

theorem keepsRecv_setSend (a : Accounts) (id : StreamId) (half : Outgoing) :
    KeepsRecv a (a.setSend id half) :=
  ⟨rfl, fun _ h => h⟩

theorem Fate.keepsRecv (h : Fate a a') : KeepsRecv a a' := by
  cases h with
  | same => exact keepsRecv_refl a
  | moved => exact keepsRecv_setSend a _ _
  | freed _ hroom =>
    obtain ⟨hside, heach⟩ := keepsRecv_allot hroom.le
    exact ⟨hside, heach⟩

theorem keepsRecv_credit (a : Accounts) (n : Nat) : KeepsRecv a (a.credit n) :=
  keepsRecv_of_same (sameStreams_credit a n)

theorem Called.keepsRecv {q q' : Retransmits} {c : Call} {r : Reply} (h : Called a q c r a' q') :
    match c with
    | .read .. | .stop .. => True
    | _ => KeepsRecv a a' := by
  cases h with
  | readFailed | read | readUp | stopFailed | stopped | stoppedUp => trivial
  | opened dir => exact keepsRecv_openLocal a dir
  | receiveWindow receiveWindow => exact keepsRecv_of_same (sameStreams_resized a receiveWindow)
  | maxConcurrent dir _ n => exact keepsRecv_allot (le_update_add a.maxRemote dir n)
  | accepted | wrote | finished | reset => exact ⟨rfl, fun _ h => h⟩
  | _ => exact keepsRecv_refl a

def Ignores (a : Accounts) : StreamsFrame → Prop
  | .stream frame => ∀ recv, a.recv frame.id = some recv → recv.isReceiving = false
  | .resetStream id _ _ => ∀ recv, a.recv id = some recv → recv.isReceiving = false
  | _ => True

/-- Take note of an accepted frame; `recv` has the receiving halves when it arrives. -/
def noteFrame {α : Type*} (recv : StreamId → Option Recv) (stream : Recv → StreamFrame → α)
    (reset : StreamId → Nat → α) (note : α) : StreamsFrame → α
  | .stream frame =>
    match recv frame.id with
    | some half => if half.isReceiving then stream half frame else note
    | none => note
  | .resetStream id _ finalOffset =>
    match recv id with
    | some half => if half.isReceiving then reset id finalOffset else note
    | none => note
  | _ => note

section Notes

variable {α : Type*} {half : Recv} {id : StreamId} {stream : Recv → StreamFrame → α}
  {reset : StreamId → Nat → α}
  {note : α}

theorem noteFrame_stream {frame : StreamFrame} (h : a.recv frame.id = some half)
    (hreceiving : half.isReceiving = true) :
    noteFrame a.recv stream reset note (.stream frame) = stream half frame := by
  simp [noteFrame, h, hreceiving]

theorem noteFrame_reset {errorCode finalOffset : Nat} (h : a.recv id = some half)
    (hreceiving : half.isReceiving = true) :
    noteFrame a.recv stream reset note (.resetStream id errorCode finalOffset) =
      reset id finalOffset := by
  simp [noteFrame, h, hreceiving]

theorem noteFrame_ignored {frame : StreamsFrame} (h : Ignores a frame) :
    noteFrame a.recv stream reset note frame = note := by
  unfold noteFrame
  split <;> try rfl
  all_goals
    split
    · rename_i half hrecv
      rw [if_neg (by simp [h half hrecv])]
    · rfl

end Notes

inductive HeardRecv (a : Accounts) (payloadLen : Nat) : StreamsFrame → Accounts → Prop
  | kept (frame : StreamsFrame) (a' : Accounts) (h : Ignores a frame) (hkeeps : KeepsRecv a a') :
      HeardRecv a payloadLen frame a'
  | ingested (frame : StreamFrame) (recv : Recv) (a' : Accounts) (h : a.recv frame.id = some recv)
      (hreceiving : recv.isReceiving = true)
      (hadmits : recv.Admits (frame.offset + frame.data.length) frame.fin a.dataRecvd
        a.localMaxData) (hopen : frame.fin = true → recv.stopped = false)
      (hkeeps : KeepsRecv (a.setRecv frame.id (recv.ingested frame payloadLen)) a') :
      HeardRecv a payloadLen (.stream frame) a'
  | closed (frame : StreamFrame) (recv : Recv) (a' : Accounts) (h : a.recv frame.id = some recv)
      (hreceiving : recv.isReceiving = true) (hstopped : recv.stopped = true)
      (hkeeps : KeepsRecv (a.removeRecv frame.id) a') : HeardRecv a payloadLen (.stream frame) a'
  | reset (id : StreamId) (errorCode finalOffset : Nat) (recv : Recv) (a' : Accounts)
      (h : a.recv id = some recv) (hreceiving : recv.isReceiving = true)
      (hadmits : recv.AdmitsReset finalOffset a.dataRecvd a.localMaxData)
      (hstopped : recv.stopped = false)
      (hkeeps : KeepsRecv (a.setRecv id (resetHalf recv errorCode finalOffset)) a') :
      HeardRecv a payloadLen (.resetStream id errorCode finalOffset) a'
  | resetClosed (id : StreamId) (errorCode finalOffset : Nat) (recv : Recv) (a' : Accounts)
      (h : a.recv id = some recv) (hreceiving : recv.isReceiving = true)
      (hkeeps : KeepsRecv (a.removeRecv id) a') :
      HeardRecv a payloadLen (.resetStream id errorCode finalOffset) a'

theorem Heard.recv {payloadLen : Nat} {frame : StreamsFrame} (h : Heard a payloadLen frame a') :
    HeardRecv a payloadLen frame a' := by
  cases h with
  | stream frame _ _ h =>
    have hingested : ∀ recv, SameStreams (a.setRecv frame.id (recv.ingested frame payloadLen))
        (ingested a frame payloadLen recv) := fun _ => ⟨rfl, rfl, rfl, rfl, rfl⟩
    cases h with
    | dropped h => exact .kept _ _ h (keepsRecv_refl a)
    | buffered recv h hreceiving hadmits hstopped =>
      exact .ingested frame recv _ h hreceiving hadmits (fun _ => hstopped)
        (keepsRecv_of_same ((hingested recv).trans (sameStreams_announce _ _)))
    | discarded recv h hreceiving hadmits _ hflag =>
      refine .ingested frame recv _ h hreceiving hadmits (fun hfin => ?_)
        (keepsRecv_of_same ((hingested recv).trans (sameStreams_credit _ _)))
      cases hflag.symm.trans hfin
    | closed recv h hreceiving _ hstopped _ maxRemote allocated hroom =>
      have hallot : KeepsRecv (a.removeRecv frame.id)
          ((a.removeRecv frame.id).allot maxRemote allocated) := keepsRecv_allot hroom.le
      have hsame : SameStreams ((a.removeRecv frame.id).allot maxRemote allocated)
          (((ingested a frame payloadLen recv).removeRecv frame.id).allot maxRemote allocated) := by
        refine ⟨rfl, rfl, ?_, rfl, rfl⟩
        simp only [ingested, allot, removeRecv, setRecv, Function.update_idem]
        rfl
      exact .closed frame recv _ h hreceiving hstopped
        (hallot.same (hsame.trans (sameStreams_credit _ _)))
  | resetStream id errorCode finalOffset _ _ h =>
    cases h with
    | redundant h => exact .kept _ _ h (keepsRecv_refl a)
    | reset recv h hreceiving hadmits hstopped =>
      exact .reset id errorCode finalOffset recv _ h hreceiving hadmits hstopped
        (keepsRecv_of_same ((sameStreams_announce _ _).trans (sameStreams_settle _ _ _)))
    | closed recv h hreceiving _ _ _ _ hroom =>
      exact .resetClosed id errorCode finalOffset recv _ h hreceiving
        (((keepsRecv_allot hroom.le).same (sameStreams_announce _ _)).same
          (sameStreams_settle _ _ _))
  | maxStreamData id =>
    exact .kept _ _ trivial ((keepsRecv_setSend a id _).same (sameStreams_announce _ id))
  | stopSending id | maxStreamDataClosed id =>
    exact .kept _ _ trivial (keepsRecv_of_same (sameStreams_announce a id))
  | maxData | maxStreams => exact .kept _ _ trivial ⟨rfl, fun _ h => h⟩
  | _ => exact .kept _ _ trivial (keepsRecv_refl a)

end KeepsRecv

end Quac.StreamHalves
