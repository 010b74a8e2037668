import Quac.StreamAccounts
import Quac.TransmitShape

/-!
What filling a packet does to the accounts of the streams, frame by frame.
-/

namespace Quac.TransmitAccounts

open Identifiers RecvHalf SendData SendHalf StreamAccounts StreamParty StreamTransmit Streams
open TransmitShape

variable {a a' : Accounts} {frames : List StreamsFrame}

def Outgoing.isDataSent (half : Outgoing) : Bool :=
  match half.state with
  | .dataSent _ => true
  | .ready | .resetSent => false

/-- What a frame says about the streams it is from, and what its sender records.
The lists of `queued` name the streams that need a frame. -/
inductive Emits (queued : Retransmits) (a : Accounts) : StreamsFrame → Accounts → Prop
  | stream (id : StreamId) (half : Outgoing) (h : a.send id = some half)
      (hreset : half.state ≠ .resetSent) (space start stop : Nat) (encodeLength : Bool)
      (buffer : SendBuffer)
      (hpoll : half.buffer.pollTransmit space = ((start, stop), encodeLength, buffer))
      (hdata : (buffer.copyRange (stop - start) start stop).length = stop - start) :
      Emits queued a
        (.stream ⟨id, start, stop == buffer.offset && Outgoing.isDataSent half,
          buffer.copyRange (stop - start) start stop⟩)
        (a.setSend id { half with buffer })
  | resetStream (id : StreamId) (errorCode : Nat) (half : Outgoing) (h : a.send id = some half)
      (hqueued : (id, errorCode) ∈ queued.resetStream) :
      Emits queued a (.resetStream id errorCode half.buffer.offset) a
  | stopSending (id : StreamId) (errorCode : Nat)
      (hqueued : (id, errorCode) ∈ queued.stopSending) :
      Emits queued a (.stopSending id errorCode) a
  | maxData : Emits queued a (.maxData (a.localMaxData.min varIntMax))
      { a with sentMaxData := a.sentMaxData.max (a.localMaxData.min varIntMax) }
  | maxStreamData (id : StreamId) (recv : Recv) (h : a.recv id = some recv)
      (hqueued : id ∈ queued.maxStreamData) (hsends : recv.canSendFlowControl = true) :
      Emits queued a (.maxStreamData id (recv.assembler.bytesRead + a.streamReceiveWindow))
        (a.setRecv id
          (recv.recordSentMaxStreamData (recv.assembler.bytesRead + a.streamReceiveWindow)))
  | maxStreams (dir : Dir) : Emits queued a (.maxStreams dir (a.maxRemote dir))
      { a with sentMaxRemote := Function.update a.sentMaxRemote dir (a.maxRemote dir) }
  | streamsBlocked (dir : Dir) : Emits queued a (.streamsBlocked dir (a.max dir)) a

inductive Sends (queued : Retransmits) : Accounts → List StreamsFrame → Accounts → Prop
  | nil (a : Accounts) : Sends queued a [] a
  | cons {a a' a'' : Accounts} {frame : StreamsFrame} {frames : List StreamsFrame}
      (h : Emits queued a frame a') (hrest : Sends queued a' frames a'') :
      Sends queued a (frame :: frames) a''

theorem Sends.append {queued : Retransmits} {a'' : Accounts}
    {frames' : List StreamsFrame} (h : Sends queued a frames a')
    (h' : Sends queued a' frames' a'') : Sends queued a (frames ++ frames') a'' := by
  induction h with
  | nil => exact h'
  | cons hemits _ ih => exact .cons hemits (ih h')

theorem Sends.emits {queued : Retransmits} (h : Sends queued a frames a') {frame : StreamsFrame}
    (hmem : frame ∈ frames) :
    ∃ b b', Emits queued b frame b' := by
  induction h with
  | nil => exact (List.not_mem_nil hmem).elim
  | cons hemits _ ih =>
    rcases List.mem_cons.mp hmem with rfl | hmem
    · exact ⟨_, _, hemits⟩
    · exact ih hmem

theorem Sends.single {queued : Retransmits} {frame : StreamsFrame}
    (h : Emits queued a frame a') : Sends queued a [frame] a' :=
  .cons h (.nil a')

theorem Emits.mono {q q' : Retransmits} {frame : StreamsFrame}
    (h : Emits q a frame a') (hq : Within q q') : Emits q' a frame a' := by
  cases h with
  | stream id half h hreset space start stop encodeLength buffer hpoll hdata =>
    exact .stream id half h hreset space start stop encodeLength buffer hpoll hdata
  | resetStream id errorCode half h hqueued =>
    exact .resetStream id errorCode half h (hq.resetStream _ hqueued)
  | stopSending id errorCode hqueued => exact .stopSending id errorCode (hq.stopSending _ hqueued)
  | maxData => exact .maxData
  | maxStreamData id recv h hqueued hsends =>
    exact .maxStreamData id recv h (hq.maxStreamData _ hqueued) hsends
  | maxStreams dir => exact .maxStreams dir
  | streamsBlocked dir => exact .streamsBlocked dir

theorem Sends.mono {q q' : Retransmits} (h : Sends q a frames a') (hq : Within q q') :
    Sends q' a frames a' := by
  induction h with
  | nil a => exact .nil a
  | cons h _ ih => exact .cons (h.mono hq) ih

structure Wrote (queued : Retransmits) (w w' : Writer) : Prop where
  sends : w'.stuck = false → w.stuck = false ∧ ∃ frames, w'.frames = w.frames ++ frames ∧
    Sends queued (accounts w.streams) frames (accounts w'.streams)
  fresh : Fresh w.streams → Fresh w'.streams
  within : Within w'.pending queued

variable {queued : Retransmits} {w w' : Writer}

theorem Wrote.nothing (hframes : w'.frames = w.frames)
    (haccounts : accounts w'.streams = accounts w.streams) (hstuck : w'.stuck = w.stuck)
    (hfresh : Fresh w.streams → Fresh w'.streams) (hwithin : Within w'.pending queued) :
    Wrote queued w w' := by
  refine ⟨fun h => ⟨hstuck ▸ h, [], ?_, ?_⟩, hfresh, hwithin⟩
  · rw [hframes, List.append_nil]
  · rw [haccounts]
    exact .nil _

theorem Wrote.refl (hwithin : Within w.pending queued) : Wrote queued w w :=
  .nothing rfl rfl rfl id hwithin

theorem Wrote.trans {w'' : Writer} (h : Wrote queued w w') (h' : Wrote queued w' w'') :
    Wrote queued w w'' := by
  refine ⟨fun hstuck => ?_, fun hfresh => h'.fresh (h.fresh hfresh), h'.within⟩
  obtain ⟨hstuck', frames', hframes', hsends'⟩ := h'.sends hstuck
  obtain ⟨hstuck'', frames, hframes, hsends⟩ := h.sends hstuck'
  refine ⟨hstuck'', frames ++ frames', ?_, hsends.append hsends'⟩
  rw [hframes', hframes, List.append_assoc]

theorem Wrote.frame {frame : StreamsFrame} (hframes : w'.frames = w.frames ++ [frame])
    (hemits : w'.stuck = false → w.stuck = false ∧
      Emits queued (accounts w.streams) frame (accounts w'.streams))
    (hfresh : Fresh w.streams → Fresh w'.streams) (hwithin : Within w'.pending queued) :
    Wrote queued w w' :=
  ⟨fun h => ⟨(hemits h).1, [frame], hframes, .single (hemits h).2⟩, hfresh, hwithin⟩

theorem wrote_of_controlStep (hwithin : Within w.pending queued) (h : ControlStep w w') :
    Wrote queued w w' := by
  cases h with
  | resetStream _ id errorCode half hsend hqueued =>
    refine .frame rfl (fun h => ⟨h, ?_⟩) (fun h => h) hwithin
    refine .resetStream id errorCode (.ofSend half) ?_ (hwithin.resetStream _ hqueued)
    simp [accounts, StreamsState.getSend, hsend]
  | stopSending _ id errorCode hqueued =>
    exact .frame rfl (fun h => ⟨h, .stopSending id errorCode (hwithin.stopSending _ hqueued)⟩)
      (fun h => h) hwithin
  | maxData _ _ hpending =>
    exact .frame rfl (fun h => ⟨h, .maxData⟩) id (hpending.trans hwithin)
  | maxStreamData _ id recv hrecv hqueued hsends =>
    refine .frame rfl (fun h => ⟨h, ?_⟩) (fun h => h) hwithin
    rw [accounts_setRecv]
    refine .maxStreamData id recv ?_ (hwithin.maxStreamData _ hqueued) hsends
    simp [accounts, StreamsState.getRecv, hrecv, getOrInsertRecv]
  | maxStreams _ dir _ hpending =>
    exact .frame rfl (fun h => ⟨h, .maxStreams dir⟩) id (hpending.trans hwithin)
  | streamsBlocked _ dir _ hpending =>
    exact .frame rfl (fun h => ⟨h, .streamsBlocked dir⟩) id (hpending.trans hwithin)
  | noted _ _ hpending =>
    exact .nothing rfl rfl rfl id (hpending.trans hwithin)

theorem writeStreamFrame_wrote (maxSize : Nat) (fair : Bool) {id : StreamId} {half : Send}
    (hwithin : Within w.pending queued) (hsend : w.streams.send id = some (some half))
    (hreset : half.isReset = false) :
    Wrote queued w (writeStreamFrame maxSize fair w id half).2 := by
  unfold writeStreamFrame
  rcases hpoll : half.pending.pollTransmit (maxSize - w.len - 1 - varIntSize id.toNat) with
    ⟨⟨start, stop⟩, encodeLength, buffer⟩
  refine .frame rfl (fun hstuck => ?_) ?_ hwithin
  · rw [Bool.or_eq_false_iff, bne_eq_false_iff_eq] at hstuck
    refine ⟨hstuck.1, ?_⟩
    have hqueue : ∀ (s : StreamsState) (flag : Bool) (queue : PendingStreamsQueue),
        accounts (if flag then { s with pending := queue } else s) = accounts s := by
      rintro s (_ | _) queue <;> rfl
    rw [accounts_setSend, hqueue]
    refine .stream id (.ofSend half) ?_ ?_ _ start stop encodeLength buffer hpoll hstuck.2
    · simp [accounts, StreamsState.getSend, hsend]
    · simpa [Send.isReset, Outgoing.ofSend] using hreset
  · intro hfresh
    dsimp only
    split_ifs <;> exact hfresh

theorem writeStreamFrames_wrote (maxSize : Nat) (fair : Bool) (fuel : Nat)
    (hwithin : Within w.pending queued) :
    Wrote queued w (writeStreamFrames maxSize fair fuel w).2 := by
  have htaken : ∀ v queue, Wrote queued w v → Wrote queued w (taken v queue) := fun v queue hv =>
    hv.trans (.nothing rfl rfl rfl id hv.within)
  refine writeStreamFrames_invariant (Wrote queued w) ?_ ?_ fuel (.refl hwithin)
  · intro v p queue hv _ _
    exact htaken v queue hv
  · intro v p queue half hv _ _ hsend hreset
    exact (htaken v queue hv).trans (writeStreamFrame_wrote maxSize fair hv.within hsend hreset)

theorem transmit_sends {p p' : Party} {space : PacketSpace} (hfresh : Fresh p.streams)
    (h : p.transmit space = some (frames, p')) :
    Fresh p'.streams ∧
      Sends { p.pending with maxStreamData := space.limits } (accounts p.streams) frames
        (accounts p'.streams) ∧
      Within p'.pending { p.pending with maxStreamData := space.limits } := by
  have hrule : ∀ w queued, ControlRule (Wrote queued w) := fun w queued =>
    ⟨fun h hstep => h.trans (wrote_of_controlStep h.within hstep)⟩
  obtain ⟨w, fuel, _, hcontrol, rfl, hstuck, rfl, rfl⟩ :=
    (hrule _ _).transmit_eq_some (.refl (.refl _)) h
  have hstreams :=
    hcontrol.trans (writeStreamFrames_wrote space.maxSize space.fair fuel hcontrol.within)
  obtain ⟨-, _, hframes, hsends⟩ := hstreams.sends hstuck
  refine ⟨hstreams.fresh hfresh, ?_, hstreams.within⟩
  rw [hframes]
  exact hsends

end Quac.TransmitAccounts
