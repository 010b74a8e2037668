import Quac.FreshStart
import Quac.StreamSchedule
import Quac.UnackedBuffers

/-!
The early data of a client that has not heard from its server yet: its streams still hold
all that was written to them, and the frames it sent repeat that.
-/

namespace Quac.EarlyHistory

open BufferedBytes EarlyData Function
open FreshStart hiding Inv inv_step
open Identifiers Lib.Transition RecvHalf SendHalf SendPath SendSteps StreamAccess
open StreamAccounts
open StreamParty hiding State step system
open StreamSchedule hiding remembered Inv inv_initial inv_step
open StreamSession hiding client
open StreamTransmit Streams TransmitShape UnackedBuffers List Option StreamsState

variable {s s' : StreamsState} {id : StreamId} {half half' : Send} {sent : List StreamsFrame}

/-- A half that holds all that was written to it; a FIN is due only once it is finished. -/
structure Intact (half : Send) : Prop where
  whole : Whole half.pending
  fin : half.finPending = true → half.state ≠ .ready

structure Grows (half half' : Send) : Prop where
  content : content half.pending <+: content half'.pending
  state : half.state ≠ .ready → half'.state ≠ .ready

theorem intact_new (maxData : Nat) : Intact (.new maxData) :=
  ⟨whole_new, fun h => (by cases h)⟩

theorem Grows.refl (half : Send) : Grows half half :=
  ⟨prefix_refl _, id⟩

structure Repeats (half : Send) (frame : StreamFrame) : Prop where
  bytes : Places (fun n byte => (content half.pending)[n]? = some byte) frame.offset frame.data
  stop : frame.offset + frame.data.length ≤ (content half.pending).length
  fin : frame.fin = true → half.state ≠ .ready

theorem Repeats.grows {frame : StreamFrame} (h : Repeats half frame) (hgrows : Grows half half') :
    Repeats half' frame := by
  obtain ⟨_, hrest⟩ := hgrows.content
  refine ⟨fun i byte hi => ?_, ?_, fun hfin => hgrows.state (h.fin hfin)⟩
  · have hbyte : (content half.pending)[frame.offset + i]? = some byte := h.bytes i byte hi
    change (content half'.pending)[frame.offset + i]? = some byte
    rw [← hrest, List.getElem?_append_left (List.getElem?_eq_some_iff.mp hbyte).1]
    exact hbyte
  · exact le_trans h.stop hgrows.content.length_le

structure Sound (s : StreamsState) (sent : List StreamsFrame) : Prop where
  halves : ∀ id half, s.send id = some (some half) → Intact half
  frames : ∀ frame, .stream frame ∈ sent → ∃ half, s.send frame.id = some (some half) ∧
    Repeats half frame

theorem Sound.onward (h : Sound s sent)
    (hhalves : ∀ id half, s'.send id = some (some half) → Intact half)
    (hgrows : ∀ id half, s.send id = some (some half) →
      ∃ half', s'.send id = some (some half') ∧ Grows half half') : Sound s' sent := by
  refine ⟨hhalves, fun frame hframe => ?_⟩
  obtain ⟨half, hsend, hrepeats⟩ := h.frames frame hframe
  obtain ⟨half', hsend', hgrows⟩ := hgrows _ half hsend
  exact ⟨half', hsend', hrepeats.grows hgrows⟩

theorem Sound.same (h : Sound s sent)
    (hsame : ∀ id half, s'.send id = some (some half) ↔ s.send id = some (some half)) :
    Sound s' sent :=
  h.onward (fun id half hsend => h.halves id half ((hsame id half).mp hsend))
    fun id half hsend => ⟨half, (hsame id half).mpr hsend, .refl half⟩

theorem Sound.congr (h : Sound s sent) (hsend : s'.send = s.send) : Sound s' sent :=
  h.same fun id half => by rw [hsend]

theorem Sound.getSend (h : Sound s sent) (hget : s.getSend id = some half) : Intact half := by
  rcases send_of_getSend hget with hsend | ⟨-, rfl⟩
  · exact h.halves id half hsend
  · exact intact_new _

theorem Sound.set (h : Sound s sent) (hget : s.getSend id = some half) (half' : Send)
    (hintact : Intact half') (hgrows : Grows half half')
    (hsend : s'.send = update s.send id (some (some half'))) :
    Sound s' sent := by
  refine h.onward (fun j half₁ hj => ?_) fun j half₁ hj => ?_
  · rw [hsend] at hj
    rcases eq_or_ne j id with rfl | hne
    · rw [update_self] at hj
      cases hj
      exact hintact
    · rw [update_of_ne hne] at hj
      exact h.halves j half₁ hj
  · rw [hsend]
    rcases eq_or_ne j id with rfl | hne
    · rw [update_self]
      simp only [StreamsState.getSend, hj, map_some, getD_some,
        some.injEq] at hget
      exact ⟨half', rfl, hget ▸ hgrows⟩
    · rw [update_of_ne hne]
      exact ⟨half₁, hj, .refl half₁⟩

theorem sound_kept (h : Sound s sent) (hseated : Seated s) (hkept : Kept s s') : Sound s' sent := by
  refine h.same fun id half => ?_
  rcases hkept.send id with heq | ⟨⟨hside, hle, -⟩, hnew⟩
  · rw [heq]
  · -- A stream that is admitted now was not there before.
    have hnone : s.send id = none := by
      by_contra hsome
      exact not_lt.mpr hle (hseated.theirs id hside hsome)
    simp [hnew, hnone]

theorem sound_openStream (h : Sound s sent) (hseated : Seated s) (dir : Dir) :
    Sound (openStream s false dir).2 sent := by
  have hopens := opens s dir
  generalize openStream s false dir = r at hopens ⊢
  cases hopens with
  | refused => exact h.congr rfl
  | opened id hid =>
    refine h.same fun j half => ?_
    dsimp only
    rcases eq_or_ne j id with rfl | hne
    · rw [update_self, hid, hseated.send_next]
      simp
    · rw [update_of_ne hne]

def early : Scope :=
  { Scope.any with lost := False, sends := False }

theorem intact_halfStep {queues : Bool} (h : Intact half)
    (hstep : HalfStep early id half queues half') : Intact half' ∧ Grows half half' := by
  have hsame : ∀ half' : Send, half'.pending = half.pending → half'.finPending = half.finPending →
      half'.state = half.state → Intact half' ∧ Grows half half' := by
    intro half' hpending hfin hstate
    refine ⟨⟨hpending ▸ h.whole, ?_⟩, by rw [hpending], ?_⟩
    · rw [hfin, hstate]
      exact h.fin
    · rw [hstate]
      exact fun h => h
  cases hstep with
  | stopped =>
    unfold Send.tryStop
    split <;> exact hsame _ rfl rfl rfl
  | raised =>
    unfold Send.increaseMaxData
    split_ifs <;> exact hsame _ rfl rfl rfl
  | reset =>
    unfold Send.reset
    split
    case h_3 => exact ⟨h, .refl half⟩
    all_goals exact ⟨⟨h.whole, fun _ => by simp⟩, prefix_refl _, fun _ => by simp⟩
  | written _ hwrite =>
    obtain ⟨hready, -, -, -, heq⟩ := Send.write_eq_ok hwrite
    rw [heq]
    split_ifs
    · exact ⟨h, .refl half⟩
    · refine ⟨⟨h.whole.write _, h.fin⟩, ?_, fun hstate => absurd hready hstate⟩
      rw [content_write]
      exact prefix_append _ _
  | finished _ hfinish =>
    unfold Send.finish at hfinish
    split at hfinish
    · cases hfinish
    · split_ifs at hfinish
      cases hfinish
      exact ⟨⟨h.whole, fun _ => by simp⟩, prefix_refl _, fun _ => by simp⟩
  | lost h | rewound h => exact h.elim
  | _ => exact hsame _ rfl rfl rfl

theorem Sound.steps (h : Sound s sent) (hsteps : Steps early s s') : Sound s' sent := by
  induction hsteps with
  | refl => exact h
  | tail _ hstep ih =>
    cases hstep with
    | calm hget hhalf | filled hget hhalf =>
      obtain ⟨hintact, hgrows⟩ := intact_halfStep (ih.getSend hget) hhalf
      exact ih.set hget _ hintact hgrows rfl
    | skipped h | framed h => exact h.elim
    | announced =>
      refine ih.congr ?_
      unfold onStreamFrame
      split_ifs <;> rfl
    | listed | counted | event => exact ih.congr rfl

theorem sound_setParams (h : Sound s sent) (params : StreamsState.PeerLimits) :
    Sound (s.setParams params) sent := by
  refine h.onward (fun id half hid => ?_) fun id half hid => ?_
  · rcases setParams_send s params id with heq | ⟨-, heq⟩ <;> rw [heq] at hid
    · exact h.halves id half hid
    · rcases hsend : s.send id with _ | _ | half₀
      · simp [hsend] at hid
      · simp [hsend] at hid
      · simp only [hsend, map_some, some.injEq] at hid
        have hintact := h.halves id half₀ hsend
        rw [← hid]
        exact ⟨hintact.whole, hintact.fin⟩
  · rcases setParams_send s params id with heq | ⟨-, heq⟩
    · exact ⟨half, heq.trans hid, .refl half⟩
    · rw [heq, hid]
      exact ⟨_, rfl, prefix_refl _, fun h => h⟩

theorem sound_retransmit (h : Sound s sent) {frame : StreamFrame} (hframe : .stream frame ∈ sent) :
    Sound (s.retransmit (streamMeta frame)) sent := by
  obtain ⟨half, hsend, hrepeats⟩ := h.frames frame hframe
  have hget : s.getSend frame.id = some half := by simp [getSend, hsend]
  have hintact := h.getSend hget
  have hsend' : s.send (streamMeta frame).id = some (some half) := hsend
  unfold retransmit
  simp only [hsend']
  refine h.set hget _ ⟨hintact.whole.retransmit ?_, ?_⟩ ?_ rfl
  · rw [← hintact.whole.length]
    exact hrepeats.stop
  · intro hfin
    rcases Bool.or_eq_true_iff.mp hfin with hfin | hfin
    · exact hintact.fin hfin
    · exact hrepeats.fin hfin
  · exact ⟨prefix_refl _, id⟩

theorem sound_writeStreamFrame {w : Writer} (h : Sound w.streams (sent ++ w.frames))
    (hsend : w.streams.send id = some (some half)) (maxSize : Nat) (fair : Bool) :
    Sound (writeStreamFrame maxSize fair w id half).2.streams
      (sent ++ (writeStreamFrame maxSize fair w id half).2.frames) := by
  obtain ⟨start, stop, _, buffer, fin, half', hpoll, hfin, hhalf', hstreams, hframes, -⟩ :=
    writeStreamFrame_spec maxSize fair w id half
  have hget : w.streams.getSend id = some half := by simp [getSend, hsend]
  have hintact := h.getSend hget
  obtain ⟨hle, hstop, -⟩ := hintact.whole.carries.pollTransmit hpoll
  have hwhole := hintact.whole.pollTransmit hpoll
  obtain ⟨hcontent, -, -⟩ := content_pollTransmit hpoll
  have hintact' : Intact half' := by
    rw [hhalf']
    exact ⟨hwhole, fun hpending => hintact.fin (Bool.and_eq_true_iff.mp hpending).1⟩
  have hgrows : Grows half half' := by
    rw [hhalf']
    refine ⟨?_, fun h => h⟩
    rw [hcontent]
  have hset : Sound (writeStreamFrame maxSize fair w id half).2.streams (sent ++ w.frames) :=
    h.set hget half' hintact' hgrows (by rw [hstreams]; rfl)
  refine ⟨hset.halves, fun frame hframe => ?_⟩
  rw [hframes, ← append_assoc, mem_append, mem_singleton] at hframe
  rcases hframe with hframe | hframe
  · exact hset.frames frame hframe
  · cases hframe
    refine ⟨half', ?_, ?_, ?_, fun hend => ?_⟩
    · rw [hstreams]
      exact update_self _ _ _
    · rw [hhalf']
      exact hwhole.carries.copyRange _ _ _
    · have hlength : stop ≤ buffer.offset := by
        rw [← hwhole.length, hcontent]
        exact hstop
      rw [hhalf']
      change start + (buffer.copyRange (stop - start) start stop).length ≤ (content buffer).length
      rw [hwhole.length_copyRange hle le_rfl hlength, hwhole.length]
      omega
    · obtain ⟨-, _, hstate⟩ := hfin.mp hend
      rw [hhalf']
      rw [hstate]
      exact fun hready => by cases hready

theorem sound_transmit {p p' : Party} {space : PacketSpace} {frames : List StreamsFrame}
    (h : Sound p.streams sent) (htransmit : p.transmit space = some (frames, p')) :
    Sound p'.streams (sent ++ frames) := by
  obtain ⟨w, _, _, hcontrol, rfl, -, rfl, rfl⟩ :=
    (announced_rule _).transmit_eq_some ⟨rfl, fun _ h => h⟩ htransmit
  have hstart : Sound w.streams (sent ++ w.frames) := by
    have hsame : Sound w.streams sent := h.congr (by rw [hcontrol.streams])
    refine ⟨hsame.halves, fun frame hframe => ?_⟩
    rcases mem_append.mp hframe with hframe | hframe
    · exact hsame.frames frame hframe
    · exact absurd (hcontrol.frames frame hframe) not_mem_nil
  refine writeStreamFrames_invariant (fun w => Sound w.streams (sent ++ w.frames)) ?_ ?_ _ hstart
  · intro w q queue hw _ _
    exact hw.congr rfl
  · intro w q queue half hw _ _ hsend _
    have htaken : Sound (taken w queue).streams (sent ++ (taken w queue).frames) := hw.congr rfl
    exact sound_writeStreamFrame htaken hsend space.maxSize space.fair

section Runs

def observe (p : Party) : Operation → List StreamsFrame → List StreamsFrame
  | .transmit space, sent => sent ++ ((p.transmit space).map Prod.fst).getD []
  | _, sent => sent

def resuming (config : Config) (remembered : StreamsState.PeerLimits) :
    System (Party × List StreamsFrame) Operation :=
  (resumed config remembered).observed [] observe

/-- Before it has to retry, a client hears nothing from its server; packets may be lost. -/
def Unanswered (x : Party × List StreamsFrame) : Operation → Prop
  | .receive _ _ | .acked _ | .retransmitAllFor0rtt | .zeroRttRejected => False
  | .lost frame => frame ∈ x.2
  | _ => True

variable {config : Config} {remembered : StreamsState.PeerLimits}
  {x x' : Party × List StreamsFrame} {op : Operation}

structure Inv (x : Party × List StreamsFrame) : Prop where
  side : x.1.streams.side = .client
  schedule : StreamSchedule.Inv x.1
  sound : Sound x.1.streams x.2

theorem inv_initial (h : (resuming config remembered).initial x) : Inv x := by
  obtain ⟨hp, hsent⟩ := h
  have hblank := blank_new config
  have hnew : StreamSchedule.Inv ⟨.new .client config.maxRemoteUni config.maxRemoteBi
      config.sendWindow config.receiveWindow config.streamReceiveWindow, .empty⟩ :=
    StreamSchedule.inv_initial ⟨_, _, _, _, _, _, rfl⟩
  refine ⟨?_, ?_, ?_⟩
  · rw [hp]
    exact hblank.side
  · have hstep : system.step ⟨.new .client config.maxRemoteUni config.maxRemoteBi
        config.sendWindow config.receiveWindow config.streamReceiveWindow, .empty⟩
        (.setParams remembered) = some x.1 := by
      rw [hp]
      rfl
    exact StreamSchedule.inv_step hnew (fun h => by cases h) hstep
  · rw [hp, hsent]
    refine sound_setParams ⟨fun id half hid => ?_, fun frame hframe => ?_⟩ remembered
    · exact absurd hid (hblank.not_used id half)
    · exact absurd hframe not_mem_nil

theorem sound_step {p p' : Party} (hseated : Seated p.streams) (h : Sound p.streams sent)
    (hop : Unanswered (p, sent) op) (hstep : StreamSession.step p op = some p') :
    Sound p'.streams (observe p op sent) := by
  have heffect := step_effect hstep
  by_cases htransmit : ∃ space, op = .transmit space
  · obtain ⟨space, rfl⟩ := htransmit
    simp only [StreamSession.step] at hstep
    split_ifs at hstep
    obtain ⟨⟨_, t⟩, ht, rfl⟩ := map_eq_some_iff.mp hstep
    simp only [observe, ht, map_some, getD_some]
    exact sound_transmit h ht
  · have hsent : observe p op sent = sent := by
      cases op with
      | transmit space => exact absurd ⟨space, rfl⟩ htransmit
      | _ => rfl
    rw [hsent]
    generalize p'.streams = s' at heffect ⊢
    cases heffect with
    | kept _ _ _ hkept => exact sound_kept h hseated hkept
    | accept dir =>
      have haccepted := sound_kept h hseated (kept_acceptStream p.streams dir)
      exact haccepted.congr rfl
    | openStream dir => exact sound_openStream h hseated dir
    | write _ data => exact h.steps (steps_writeStream trivial trivial _ false data)
    | finish => exact h.steps (steps_finishStream trivial trivial)
    | reset pending _ errorCode => exact h.steps (steps_resetStream trivial pending errorCode)
    | poll =>
      obtain ⟨t, _, _, hsteps, heq⟩ := steps_poll early trivial p.streams
      rw [heq]
      exact (h.steps hsteps).congr rfl
    | sendWindow => exact h.congr rfl
    | setPriority id priority => exact h.steps (steps_setPriority _ id priority)
    | stopSending => exact hop.elim
    | maxData => exact hop.elim
    | maxStreamData => exact hop.elim
    | maxStreams => exact hop.elim
    | transmit space => exact absurd ⟨space, rfl⟩ htransmit
    | ackOf => exact hop.elim
    | resetAcked => exact hop.elim
    | retransmit => exact sound_retransmit h hop
    | setParams params => exact sound_setParams h params
    | rewound => exact hop.elim
    | rejected => exact hop.elim

theorem inv_step (h : Inv x) (hop : Unanswered x op)
    (hstep : (resuming config remembered).step x op = some x') : Inv x' := by
  obtain ⟨hstep, hsent⟩ := System.observed_step_eq_some hstep
  have hnot : op ≠ .zeroRttRejected := by
    rintro rfl
    exact hop.elim
  refine ⟨?_, StreamSchedule.inv_step h.schedule (fun hrejected => absurd hrejected hnot) hstep, ?_⟩
  · rw [← h.side]
    by_cases hopen : ∃ dir, op = .call (.openStream dir)
    · obtain ⟨dir, rfl⟩ := hopen
      rw [← some.inj hstep]
      have hopens := opens x.1.streams dir
      change (openStream x.1.streams false dir).2.side = x.1.streams.side
      generalize openStream x.1.streams false dir = r at hopens ⊢
      cases hopens <;> rfl
    · exact ((step_effect hstep).seats (fun dir h => hopen ⟨dir, h⟩) hnot).side
  · rw [hsent]
    exact sound_step h.schedule.seated h.sound hop hstep

end Runs

end Quac.EarlyHistory
