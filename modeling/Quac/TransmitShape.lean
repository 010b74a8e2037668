import Quac.StreamParty

/-!
What filling a packet can do to the streams.  Control frames only note what was announced
to the peer; the frames of streams take one stream after the other from the queue and move
its buffer on.
-/

namespace Quac.TransmitShape

open Identifiers RecvHalf SendHalf StreamParty StreamTransmit Streams List

structure Within (pending queued : Retransmits) : Prop where
  resetStream : ∀ x ∈ pending.resetStream, x ∈ queued.resetStream
  stopSending : ∀ x ∈ pending.stopSending, x ∈ queued.stopSending
  maxStreamData : ∀ id ∈ pending.maxStreamData, id ∈ queued.maxStreamData

theorem Within.refl (queued : Retransmits) : Within queued queued :=
  ⟨fun _ h => h, fun _ h => h, fun _ h => h⟩

theorem Within.trans {q q' q'' : Retransmits} (h : Within q q') (h' : Within q' q'') :
    Within q q'' :=
  ⟨fun x hx => h'.resetStream x (h.resetStream x hx),
    fun x hx => h'.stopSending x (h.stopSending x hx),
    fun x hx => h'.maxStreamData x (h.maxStreamData x hx)⟩

/-- One step of `write_control_frames`: a frame that was queued is put into the packet, or
less is queued. -/
inductive ControlStep (w : Writer) : Writer → Prop
  | resetStream (len : Nat) (id : StreamId) (errorCode : Nat) (half : Send)
      (hsend : w.streams.send id = some (some half))
      (hqueued : (id, errorCode) ∈ w.pending.resetStream) :
      ControlStep w { w with len, frames := w.frames ++ [.resetStream id errorCode half.offset] }
  | stopSending (len : Nat) (id : StreamId) (errorCode : Nat)
      (hqueued : (id, errorCode) ∈ w.pending.stopSending) :
      ControlStep w { w with len, frames := w.frames ++ [.stopSending id errorCode] }
  | maxData (len : Nat) (pending : Retransmits) (hpending : Within pending w.pending) :
      ControlStep w { w with
        len, pending
        streams := { w.streams with
          sentMaxData := w.streams.sentMaxData.max (w.streams.localMaxData.min varIntMax) }
        frames := w.frames ++ [.maxData (w.streams.localMaxData.min varIntMax)] }
  | maxStreamData (len : Nat) (id : StreamId) (recv : Recv)
      (hrecv : w.streams.recv id = some (some (.opened recv)))
      (hqueued : id ∈ w.pending.maxStreamData) (hsends : recv.canSendFlowControl = true) :
      ControlStep w { w with
        len
        streams := w.streams.setRecv id (recv.recordSentMaxStreamData
          (recv.maxStreamData w.streams.streamReceiveWindow).1)
        frames := w.frames ++
          [.maxStreamData id (recv.maxStreamData w.streams.streamReceiveWindow).1] }
  | maxStreams (len : Nat) (dir : Dir) (pending : Retransmits)
      (hpending : Within pending w.pending) :
      ControlStep w { w with
        len, pending
        streams := { w.streams with
          sentMaxRemote := Function.update w.streams.sentMaxRemote dir (w.streams.maxRemote dir) }
        frames := w.frames ++ [.maxStreams dir (w.streams.maxRemote dir)] }
  | streamsBlocked (len : Nat) (dir : Dir) (pending : Retransmits)
      (hpending : Within pending w.pending) :
      ControlStep w { w with
        len, pending, frames := w.frames ++ [.streamsBlocked dir (w.streams.max dir)] }
  | noted (blocked : Dir → Bool) (pending : Retransmits) (hpending : Within pending w.pending) :
      ControlStep w { w with pending, streams := { w.streams with streamsBlocked := blocked } }

structure ControlRule (P : Writer → Prop) : Prop where
  step : ∀ {w w'}, P w → ControlStep w w' → P w'

namespace ControlRule

variable {P : Writer → Prop} {w : Writer}

theorem within (h : ControlRule P) {pending : Retransmits} (hw : P w)
    (hpending : Within pending w.pending) : P { w with pending } :=
  h.step hw (.noted w.streams.streamsBlocked pending hpending)

theorem writeResetStreams (h : ControlRule P) (maxSize : Nat) {ids : List (StreamId × Nat)}
    (hids : ∀ x ∈ ids, x ∈ w.pending.resetStream) (hw : P w) :
    P (writeResetStreams maxSize w ids) := by
  induction ids generalizing w with
  | nil => exact h.within hw ⟨fun _ h => (not_mem_nil h).elim, fun _ h => h, fun _ h => h⟩
  | cons x rest ih =>
    have hrest : ∀ x ∈ rest, x ∈ w.pending.resetStream :=
      fun x hx => hids x (mem_cons_of_mem _ hx)
    unfold writeResetStreams
    split_ifs
    · split
      · rename_i half hsend
        exact ih hrest (h.step hw (.resetStream _ x.1 x.2 half hsend (hids x mem_cons_self)))
      · exact ih hrest hw
    · exact h.within hw ⟨fun y hy => hids y (mem_reverse.mp hy), fun _ h => h, fun _ h => h⟩

theorem writeStopSending (h : ControlRule P) (maxSize : Nat) {ids : List (StreamId × Nat)}
    (hids : ∀ x ∈ ids, x ∈ w.pending.stopSending) (hw : P w) :
    P (writeStopSending maxSize w ids) := by
  induction ids generalizing w with
  | nil => exact h.within hw ⟨fun _ h => h, fun _ h => (not_mem_nil h).elim, fun _ h => h⟩
  | cons x _ ih =>
    unfold writeStopSending
    split_ifs
    · exact ih (fun x hx => hids x (mem_cons_of_mem _ hx))
        (h.step hw (.stopSending _ x.1 x.2 (hids x mem_cons_self)))
    · exact h.within hw ⟨fun _ h => h, fun y hy => hids y (mem_reverse.mp hy), fun _ h => h⟩

theorem writeMaxData (h : ControlRule P) (maxSize : Nat) (hw : P w) :
    P (writeMaxData maxSize w) := by
  unfold StreamTransmit.writeMaxData
  split_ifs
  · exact h.step hw (.maxData _ _ ⟨fun _ h => h, fun _ h => h, fun _ h => h⟩)
  · exact hw

theorem writeMaxStreamData (h : ControlRule P) (maxSize : Nat) {ids : List StreamId}
    (hids : ∀ id ∈ ids, id ∈ w.pending.maxStreamData) (hw : P w) :
    P (writeMaxStreamData maxSize w ids) := by
  induction ids generalizing w with
  | nil => exact h.within hw ⟨fun _ h => h, fun _ h => h, fun _ h => (not_mem_nil h).elim⟩
  | cons id rest ih =>
    have hrest : ∀ id ∈ rest, id ∈ w.pending.maxStreamData :=
      fun id hid => hids id (mem_cons_of_mem _ hid)
    unfold writeMaxStreamData
    split_ifs
    · split
      · rename_i recv hrecv
        split_ifs with hsends
        · exact ih hrest
            (h.step hw (.maxStreamData _ id recv hrecv (hids id mem_cons_self) hsends))
        · exact ih hrest hw
      · exact ih hrest hw
    · exact h.within hw ⟨fun _ h => h, fun _ h => h, hids⟩

theorem writeMaxStreams (h : ControlRule P) (maxSize : Nat) (dir : Dir) (hw : P w) :
    P (writeMaxStreams maxSize w dir) := by
  unfold StreamTransmit.writeMaxStreams
  split_ifs
  · exact h.step hw (.maxStreams _ dir _ ⟨fun _ h => h, fun _ h => h, fun _ h => h⟩)
  · exact hw

theorem writeStreamsBlocked (h : ControlRule P) (maxSize : Nat) (dir : Dir) (hw : P w) :
    P (writeStreamsBlocked maxSize w dir) := by
  have hframe : ∀ w', P w' → P { w' with
      len := w'.len + 1 + varIntSize (w'.streams.max dir)
      pending := { w'.pending with
        streamsBlocked := Function.update w'.pending.streamsBlocked dir false }
      frames := w'.frames ++ [.streamsBlocked dir (w'.streams.max dir)] } := fun w' hw' =>
    h.step hw' (.streamsBlocked _ dir _ ⟨fun _ h => h, fun _ h => h, fun _ h => h⟩)
  have hnoted := h.step hw (.noted (Function.update w.streams.streamsBlocked dir false)
    { w.pending with streamsBlocked := Function.update w.pending.streamsBlocked dir true }
    ⟨fun _ h => h, fun _ h => h, fun _ h => h⟩)
  unfold StreamTransmit.writeStreamsBlocked
  dsimp only
  split_ifs
  · exact hframe _ hnoted
  · exact hnoted
  · exact hframe w hw
  · exact hw

/-- What every step keeps, the whole keeps. -/
theorem writeControlFrames (h : ControlRule P) (maxSize : Nat) (hw : P w) :
    P (writeControlFrames maxSize w) := by
  have hresets := h.writeResetStreams maxSize (fun _ hx => mem_reverse.mp hx) hw
  have hstops := h.writeStopSending maxSize (fun _ hx => mem_reverse.mp hx) hresets
  have hlimits := h.writeMaxStreamData maxSize (fun _ hx => hx) (h.writeMaxData maxSize hstops)
  have hstreams := h.writeMaxStreams maxSize .uni (h.writeMaxStreams maxSize .bi hlimits)
  exact h.writeStreamsBlocked maxSize .uni (h.writeStreamsBlocked maxSize .bi hstreams)

/-- A packet is filled with control frames first, then with frames of streams. -/
theorem transmit_eq_some {p p' : Party} {space : PacketSpace} {frames : List StreamsFrame}
    (hrule : ControlRule P)
    (hw : P ⟨space.len, p.streams, { p.pending with maxStreamData := space.limits }, [], false⟩)
    (h : p.transmit space = some (frames, p')) :
    ∃ w fuel w', P w ∧ w' = (writeStreamFrames space.maxSize space.fair fuel w).2 ∧
      w'.stuck = false ∧ frames = w'.frames ∧ p' = ⟨w'.streams, w'.pending⟩ := by
  simp only [Party.transmit] at h
  split_ifs at h with hstuck
  obtain ⟨rfl, rfl⟩ := Prod.mk.inj (Option.some.inj h)
  exact ⟨_, _, _, hrule.writeControlFrames space.maxSize hw, rfl,
    eq_false_of_ne_true hstuck, rfl, rfl⟩

end ControlRule

/-- Only what was announced to the peer differs, and there are no frames of streams among
the new ones. -/
structure Announced (w w' : Writer) : Prop where
  streams : w'.streams = { w.streams with
    recv := w'.streams.recv
    sentMaxData := w'.streams.sentMaxData
    sentMaxRemote := w'.streams.sentMaxRemote
    streamsBlocked := w'.streams.streamsBlocked }
  frames : ∀ frame, .stream frame ∈ w'.frames → .stream frame ∈ w.frames

theorem ControlStep.announced {w w' : Writer} (h : ControlStep w w') : Announced w w' := by
  cases h with
  | noted => exact ⟨rfl, fun _ h => h⟩
  | _ => exact ⟨rfl, fun _ h => by simpa using h⟩

theorem announced_rule (w : Writer) : ControlRule (Announced w) where
  step h hstep := by
    refine ⟨?_, fun frame hframe => h.frames frame (hstep.announced.frames frame hframe)⟩
    rw [hstep.announced.streams, h.streams]

section Stream

variable {maxSize : Nat} {fair : Bool}

def taken (w : Writer) (queue : PendingStreamsQueue) : Writer :=
  { w with streams := { w.streams with pending := queue } }

/-- The queue after a frame: the stream goes back to it while it has something to send. -/
def requeued (fair : Bool) (queue : PendingStreamsQueue) (id : StreamId) (half : Send) :
    PendingStreamsQueue :=
  if half.isPending then
    if fair then queue.pushPending id half.priority else queue.reinsertPending id half.priority
  else queue

/-- A frame takes a range from the buffer of its stream, with the FIN if it is the last one. -/
theorem writeStreamFrame_spec (maxSize : Nat) (fair : Bool) (w : Writer) (id : StreamId)
    (half : Send) :
    ∃ start stop encodeLength buffer fin half',
      half.pending.pollTransmit (maxSize - w.len - 1 - varIntSize id.toNat) =
        ((start, stop), encodeLength, buffer) ∧
      (fin = true ↔ stop = buffer.offset ∧ ∃ finishAcked, half.state = .dataSent finishAcked) ∧
      half' = { half with pending := buffer, finPending := half.finPending && !fin } ∧
      (writeStreamFrame maxSize fair w id half).2.streams = StreamsState.setSend
        { w.streams with pending := requeued fair w.streams.pending id half' } id half' ∧
      (writeStreamFrame maxSize fair w id half).2.frames =
        w.frames ++ [.stream ⟨id, start, fin, buffer.copyRange (stop - start) start stop⟩] ∧
      (writeStreamFrame maxSize fair w id half).2.stuck =
        (w.stuck || (buffer.copyRange (stop - start) start stop).length != stop - start) := by
  rcases hpoll : half.pending.pollTransmit (maxSize - w.len - 1 - varIntSize id.toNat) with
    ⟨⟨start, stop⟩, encodeLength, buffer⟩
  refine ⟨start, stop, encodeLength, buffer,
    (writeStreamFrame maxSize fair w id half).1.fin, _, rfl,
    ?_, rfl, ?_, ?_, ?_⟩
  · unfold writeStreamFrame
    rw [hpoll]
    rcases half.state with _ | _ | _ <;> simp
  · unfold writeStreamFrame requeued
    rw [hpoll]
    dsimp only
    split_ifs <;> rfl
  all_goals
    unfold writeStreamFrame
    rw [hpoll]

/-- What a writer keeps over the streams that have no frame and over those that have one,
it keeps over `write_stream_frames`. -/
theorem writeStreamFrames_invariant (inv : Writer → Prop)
    (hskip : ∀ w p queue, inv w → w.streams.pending.pop = some (p, queue) →
      (∀ half, w.streams.send p.id = some (some half) → half.isReset = true) →
      inv (taken w queue))
    (hframe : ∀ w p queue half, inv w → w.len + streamSizeBound < maxSize →
      w.streams.pending.pop = some (p, queue) →
      w.streams.send p.id = some (some half) → half.isReset = false →
      inv (writeStreamFrame maxSize fair (taken w queue) p.id half).2)
    (fuel : Nat) {w : Writer} (h : inv w) : inv (writeStreamFrames maxSize fair fuel w).2 := by
  induction fuel generalizing w with
  | zero => exact h
  | succ _ ih =>
    unfold writeStreamFrames
    split_ifs with hroom
    · split
      · exact h
      · rename_i p queue hpop
        dsimp only
        split
        · rename_i half hsend
          split_ifs with hreset
          · refine ih (hskip w p queue h hpop fun half' hsend' => ?_)
            cases hsend.symm.trans hsend'
            exact hreset
          · exact ih (hframe w p queue half h hroom hpop hsend (Bool.eq_false_iff.mpr hreset))
        · rename_i hnone
          exact ih (hskip w p queue h hpop fun half hsend => absurd hsend (hnone half))
    · exact h

end Stream

end Quac.TransmitShape
