import Quac.EngineSteps
import Quac.StreamSignals

/-!
When `drain_connection_events` returns, the connection has nothing left to report
and its deadline is up to date.
-/

namespace Quac.EngineSettles

open EngineSteps Identifiers Lib.Slabs ProtoConnection RecvSteps StreamAccess
open StreamSignals Streams TileEngine TileEngine.Engine

variable {Q : Connection → Prop} {k : Nat} {e : Engine} {s : StreamsState}

def InnerHolds (Q : Connection → Prop) (k : Nat) (e : Engine) : Prop :=
  ∀ slot, e.slot k = some slot → Q slot.inner

structure InnerRule (Q : Connection → Prop) : Prop where
  poll : ∀ c, Q c → Q c.poll.2
  accept : ∀ c dir, Q c → Q { c with streams := (acceptStream c.streams dir).2 }
  openStream : ∀ c dir, Q c → Q { c with streams := (openStream c.streams c.state.isClosed dir).2 }
  readError : ∀ c id error streams, Q c → Chunks.new id true c.streams = .error (error, streams) →
    Q { c with streams }
  read : ∀ c id chunks room, Q c → Chunks.new id true c.streams = .ok chunks → Q { c with
      streams := ((readChunks chunks room).2.2.finalize c.pending).1
      pending := ((readChunks chunks room).2.2.finalize c.pending).2 }
  endpointEvent : ∀ c, Q c → Q c.pollEndpointEvents.2
  reply : ∀ c rearm, Q c → Q (c.handleEvent rearm)

theorem slot_removeLost (e : Engine) (k ch : Nat) : (e.removeLost k ch).slot k = none := by
  unfold Engine.removeLost
  split
  · assumption
  · exact (Slab.get_remove e.connections k k).trans (if_pos rfl)

namespace InnerHolds

variable {Q : Connection → Prop} {k : Nat} {e : Engine}

theorem setInner {slot : ConnectionSlot} (hslot : e.slot k = some slot) {inner : Connection}
    (h : Q inner) : InnerHolds Q k (e.setInner k slot inner) := by
  intro s hs
  rw [Engine.setInner, slot_setSlot_self hslot] at hs
  cases hs
  exact h

theorem of_slot_none (h : e.slot k = none) : InnerHolds Q k e := by
  intro slot hslot
  rw [h] at hslot
  cases hslot

theorem of_moves {p : Permit} {e' : Engine} (h : InnerHolds Q k e) (hmoves : Moves p k e e')
    (hp : ∀ c c', p.inner c c' → Q c → Q c') : InnerHolds Q k e' := by
  refine slot_of_moves (P := fun slot => Q slot.inner) h hmoves ?_ fun _ _ _ hQ => hQ
  rintro slot inner _ _ (rfl | hinner) hQ
  · exact hQ
  · exact hp _ _ hinner hQ

end InnerHolds

def keeping (Q : Connection → Prop) : Permit :=
  ⟨fun c c' => Q c → Q c', True, True⟩

theorem InnerRule.inner (h : InnerRule Q) {c c' : Connection}
    (hstep : InnerStep c c') (hc : Q c) : Q c' := by
  cases hstep with
  | poll heq =>
    have hpolled := h.poll c hc
    rwa [heq] at hpolled
  | @accept dir _ _ heq =>
    have haccepted := h.accept c dir hc
    rwa [heq] at haccepted
  | @openStream dir _ _ heq =>
    have hopened := h.openStream c dir hc
    rwa [heq] at hopened
  | reads hreads =>
    cases hreads with
    | error hnew => exact h.readError c _ _ _ hc hnew
    | chunks hnew room => exact h.read c _ _ room hc hnew
  | endpointEvent heq =>
    have hpolled := h.endpointEvent c hc
    rwa [heq] at hpolled
  | reply heq rearm =>
    have hpolled := h.endpointEvent c hc
    rw [heq] at hpolled
    exact h.reply _ rearm hpolled

theorem InnerRule.drains (h : InnerRule Q) : (keeping Q).Drains :=
  ⟨fun _ _ hstep => h.inner hstep, trivial, trivial⟩

/-- How many events `Connection::poll` can report at most. -/
def pendingEvents (c : Connection) : Nat :=
  c.events.length + signalCount c.streams + c.error.toList.length

theorem poll_pendingEvents (c : Connection) :
    pendingEvents c.poll.2 + c.poll.1.toList.length ≤ pendingEvents c := by
  have hstreams := poll_signalCount c.streams
  unfold Connection.poll
  rcases hevents : c.events with _ | ⟨event, _⟩
  · rcases hpoll : c.streams.poll with ⟨_ | _, _⟩
    · rw [hpoll] at hstreams
      rcases herror : c.error with _ | _ <;> simp [pendingEvents, hevents, herror] at hstreams ⊢ <;>
        omega
    · rw [hpoll] at hstreams
      simp [pendingEvents, hevents] at hstreams ⊢
      omega
  · simp only [pendingEvents, hevents, List.length_cons, Option.toList_some, List.length_nil]
    omega

theorem absorbs_readChunks {heard : Prop} (chunks : Chunks) (room : Nat) :
    Absorbs heard chunks.streams (readChunks chunks room).2.2.streams := by
  induction room generalizing chunks with
  | zero => exact .refl
  | succ _ ih =>
    have hnext : Absorbs heard chunks.streams _ := absorbs_next chunks 65536
    unfold readChunks
    split <;> (rename_i heq; rw [heq] at hnext)
    · exact hnext.trans (ih _)
    · exact hnext
    · exact hnext

theorem absorbs_read {heard : Prop} {id : StreamId} {chunks : Chunks}
    (hnew : Chunks.new id true s = .ok chunks) (room : Nat) (pending : Retransmits) :
    Absorbs heard s ((readChunks chunks room).2.2.finalize pending).1 :=
  (((absorbs_chunks_new s id true).2 chunks hnew).trans (absorbs_readChunks chunks room)).trans
    (absorbs_finalize _ pending)

theorem pendingEvents_of_sameSignals {c : Connection} (h : SameSignals c.streams s)
    (pending : Retransmits) :
    pendingEvents { c with streams := s, pending } = pendingEvents c := by
  simp only [pendingEvents, h.signalCount_eq]

theorem atMost_rule (n : Nat) : InnerRule fun c => pendingEvents c ≤ n where
  poll c h := by
    have := poll_pendingEvents c
    omega
  accept c dir h := (pendingEvents_of_sameSignals (.acceptStream dir) c.pending).trans_le h
  openStream c dir h := (pendingEvents_of_sameSignals (.openStream _ dir) c.pending).trans_le h
  readError c id error streams h hnew :=
    (pendingEvents_of_sameSignals (SameCounts.of_absorbs
      ((absorbs_chunks_new _ _ _).1 error streams hnew)).toSameSignals
      c.pending).trans_le h
  read c id chunks room h hnew := by
    have hsame := SameCounts.of_absorbs (absorbs_read hnew room c.pending)
    exact (pendingEvents_of_sameSignals hsame.toSameSignals _).trans_le h
  endpointEvent c h := by
    unfold Connection.pollEndpointEvents
    split <;> exact h
  reply c rearm h := h

/-- Nothing is left to report, and the cached deadline is the connection's. -/
structure SettledSlot (slot : ConnectionSlot) : Prop where
  nextTimeout : slot.nextTimeout = slot.inner.pollTimeout
  events : slot.inner.events = []
  streamEvents : slot.inner.streams.events = []
  opened : ∀ dir, slot.inner.streams.opened dir = false
  error : slot.inner.error = none

def Settled (k : Nat) (e : Engine) : Prop :=
  ∀ slot, e.slot k = some slot → SettledSlot slot

theorem streams_poll_eq_none {s' : StreamsState} (h : s.poll = (none, s')) :
    s'.events = [] ∧ ∀ dir, s'.opened dir = false := by
  cases StreamsState.poll_spec h with
  | event hevent _ _ hclosed _ =>
    rw [List.head?_eq_none_iff] at hevent
    exact ⟨by rw [hevent]; rfl, hclosed⟩

theorem Settled.of_slot_none (h : e.slot k = none) : Settled k e := by
  intro slot hslot
  rw [h] at hslot
  cases hslot

/-- With more fuel than events the loop ends because nothing is left. -/
theorem drainEvents_settled (replies : Replies) (k ch fuel : Nat)
    (h : ∀ slot, e.slot k = some slot → pendingEvents slot.inner < fuel) :
    Settled k (drainEvents replies k ch fuel e) := by
  induction fuel generalizing e with
  | zero =>
    intro slot hslot
    exact absurd (h slot hslot) (Nat.not_lt_zero _)
  | succ fuel ih =>
    unfold Engine.drainEvents
    split
    · exact .of_slot_none (by assumption)
    · rename_i slot hslot
      split
      · rename_i inner hpoll
        intro s hs
        rw [slot_setSlot_self hslot] at hs
        cases hs
        unfold Connection.poll at hpoll
        split at hpoll
        · simp at hpoll
        · rename_i hevents
          split at hpoll
          · simp at hpoll
          · rename_i streams hstreams
            split at hpoll
            · simp at hpoll
            · rename_i herror
              cases hpoll
              obtain ⟨hnil, hopened⟩ := streams_poll_eq_none hstreams
              exact ⟨rfl, hevents, hnil, hopened, herror⟩
      · rename_i event inner hpoll
        have hless : pendingEvents inner < fuel := by
          have hle := poll_pendingEvents slot.inner
          have hlt := h slot hslot
          rw [hpoll] at hle
          simp only [Option.toList_some, List.length_singleton] at hle
          omega
        -- What follows the poll keeps the number of events below the fuel left.
        obtain ⟨n, rfl⟩ : ∃ n, fuel = n + 1 := Nat.exists_eq_succ_of_ne_zero (by omega)
        have hrule := (atMost_rule n).drains.rule replies k ch (e.setInner k slot inner)
        have hhead := hrule.loopRule.headRule
        have hpolled : InnerHolds (fun c => pendingEvents c ≤ n) k (e.setInner k slot inner) :=
          .setInner hslot (Nat.le_of_lt_succ hless)
        have hslot' := slot_setSlot_self hslot { slot with inner }
        have hgo : ∀ {e' : Engine}, Moves (keeping _) k (e.setInner k slot inner) e' →
            Settled k (drainEvents replies k ch (n + 1) e') :=
          fun hmoves => ih fun slot hslot => Nat.lt_succ_of_le
            (hpolled.of_moves hmoves (fun _ _ hkeeps => hkeeps) slot hslot)
        rcases event with _ | _ | _ | _ | event | _ | _
        · exact hgo .refl
        · exact hgo (hrule.markPendingSend _ .refl)
        · exact hgo .refl
        · exact .of_slot_none (slot_removeLost _ k ch)
        · rcases event with dir | id | id | id | ⟨id, _⟩ | dir
          · exact hgo (hhead.acceptStreams dir _ .refl)
          · exact hgo (hrule.drainReadable _ id .refl)
          · exact hgo (hrule.wakeSender _ id .refl)
          · exact hgo .refl
          · exact hgo .refl
          · rcases hopen : openStream inner.streams inner.state.isClosed dir with ⟨_ | id, streams⟩
            · simp only [hopen]
              exact hgo (hrule.openNone _ _ dir streams .refl hslot' hopen)
            · simp only [hopen]
              have hopened := hrule.openSome _ _ dir id streams .refl hslot' hopen
              exact hgo (hhead.drainEvents _
                (hhead.drainEndpointEvents _ (hrule.markPendingSend _ hopened)))
        · exact hgo .refl
        · exact hgo .refl

theorem pendingEvents_lt_eventBound {slot : ConnectionSlot}
    (h : e.slot k = some slot) : pendingEvents slot.inner < e.eventBound k := by
  have herror : slot.inner.error.toList.length ≤ 1 := by
    rcases slot.inner.error with _ | _
    · exact Nat.zero_le 1
    · exact Nat.le_refl 1
  simp only [Engine.eventBound, h, pendingEvents, signalCount]
  omega

theorem drainConnectionEvents_settled (replies : Replies) (e : Engine) (k : Nat) :
    Settled k (drainConnectionEvents replies e k) := by
  rcases hslot : e.slot k with _ | slot
  · rw [Engine.drainConnectionEvents, hslot]
    exact .of_slot_none hslot
  · simp only [Engine.drainConnectionEvents, hslot]
    exact drainEvents_settled replies k slot.handle _ fun _ => pendingEvents_lt_eventBound

end Quac.EngineSettles
