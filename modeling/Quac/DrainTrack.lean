import Quac.EngineSettles
import Quac.Lifecycle

/-!
What draining a slot does to the slot, the map from handles to slots and the
endpoint's connections.
-/

namespace Quac.DrainTrack

open EngineSettles EngineSteps Lib.Slabs Lifecycle ProtoConnection
open TileEngine Engine

/-- Draining leaves all of this to the connection. -/
structure SameLife (c c' : Connection) : Prop where
  state : c'.state = c.state
  error : c'.error = c.error
  closeTimer : c'.timers.get .close = c.timers.get .close
  lost : ∀ reason, .connectionLost reason ∈ c'.events → .connectionLost reason ∈ c.events

theorem SameLife.refl {c : Connection} : SameLife c c :=
  ⟨rfl, rfl, rfl, fun _ h => h⟩

theorem SameLife.trans {c c' c'' : Connection} (h : SameLife c c') (h' : SameLife c' c'') :
    SameLife c c'' :=
  ⟨h'.state.trans h.state, h'.error.trans h.error, h'.closeTimer.trans h.closeTimer,
    fun reason hr => h.lost reason (h'.lost reason hr)⟩

variable {inner : Connection}

theorem poll_sameLife {c : Connection} {event : Option Event} (h : c.poll = (event, inner))
    (hlost : ∀ reason, event ≠ some (.connectionLost reason)) :
    SameLife c inner ∧ inner.endpointEvents = c.endpointEvents := by
  unfold Connection.poll at h
  split at h
  · rename_i events hevents
    cases h
    refine ⟨⟨rfl, rfl, rfl, ?_⟩, rfl⟩
    intro reason hr
    rw [hevents]
    exact List.mem_cons_of_mem _ hr
  · split at h
    · cases h
      exact ⟨⟨rfl, rfl, rfl, fun _ h => h⟩, rfl⟩
    · split at h
      · cases h
        exact absurd rfl (hlost _)
      · cases h
        exact ⟨⟨rfl, rfl, rfl, fun _ h => h⟩, rfl⟩

structure Keeps (k : Nat) (e e' : Engine) : Prop where
  chToSlot : e'.chToSlot = e.chToSlot
  endpoint : e'.endpoint = e.endpoint
  vacant : e.slot k = none → e'.slot k = none
  slot : ∀ slot, e.slot k = some slot → ∃ slot', e'.slot k = some slot' ∧
    slot'.handle = slot.handle ∧ SameLife slot.inner slot'.inner ∧
    slot'.inner.endpointEvents = slot.inner.endpointEvents

def calm : Permit :=
  ⟨fun c c' => SameLife c c' ∧ c'.endpointEvents = c.endpointEvents, True, False⟩

theorem calm_streams (c : Connection) (streams : Streams.StreamsState)
    (pending : Streams.Retransmits) : calm.inner c { c with streams, pending } :=
  ⟨⟨rfl, rfl, rfl, fun _ h => h⟩, rfl⟩

theorem calm_reads (c c' : Connection) (h : Reads c c') : calm.inner c c' := by
  cases h with
  | error => exact calm_streams c _ _
  | chunks => exact calm_streams c _ _

variable {slot : ConnectionSlot}

namespace Keeps

variable {k : Nat} {e e' e'' : Engine}

theorem refl : Keeps k e e :=
  ⟨rfl, rfl, id, fun slot h => ⟨slot, h, rfl, .refl, rfl⟩⟩

theorem trans (h : Keeps k e e') (h' : Keeps k e' e'') : Keeps k e e'' where
  chToSlot := h'.chToSlot.trans h.chToSlot
  endpoint := h'.endpoint.trans h.endpoint
  vacant hnone := h'.vacant (h.vacant hnone)
  slot slot hslot := by
    obtain ⟨slot', hslot', hhandle, hlife, hevents⟩ := h.slot slot hslot
    obtain ⟨slot'', hslot'', hhandle', hlife', hevents'⟩ := h'.slot slot' hslot'
    exact ⟨slot'', hslot'', hhandle'.trans hhandle, hlife.trans hlife', hevents'.trans hevents⟩

theorem setSlot {slot' : ConnectionSlot} (hslot : e.slot k = some slot)
    (hhandle : slot'.handle = slot.handle) (hlife : SameLife slot.inner slot'.inner)
    (hevents : slot'.inner.endpointEvents = slot.inner.endpointEvents) :
    Keeps k e (e.setSlot k slot') where
  chToSlot := rfl
  endpoint := rfl
  vacant hnone := by
    rw [hslot] at hnone
    cases hnone
  slot s hs := by
    rw [hslot] at hs
    cases hs
    exact ⟨slot', slot_setSlot_self hslot slot', hhandle, hlife, hevents⟩

theorem of_moves (h : Moves calm k e e') : Keeps k e e' := by
  induction h with
  | refl => exact refl
  | tail _ hmove ih =>
    refine ih.trans ?_
    cases hmove with
    | slot hslot hinner =>
      rcases hinner with rfl | ⟨hlife, hevents⟩
      · exact setSlot hslot rfl .refl rfl
      · exact setSlot hslot rfl hlife hevents
    | opened _ hslot =>
      refine ⟨rfl, rfl, fun hnone => ?_, fun s hs => ?_⟩
      · cases hslot.symm.trans hnone
      · cases hslot.symm.trans hs
        exact ⟨_, slot_setSlot_self hslot _, rfl, .refl, rfl⟩
    | endpoint h | removed h => exact h.elim
    | _ => exact ⟨rfl, rfl, id, fun slot h => ⟨slot, h, rfl, .refl, rfl⟩⟩

end Keeps

/-- The slot is there, and its connection has the life of `c`; the endpoint has
forgotten it or will do so when it learns what is still queued. -/
structure Running (k ch : Nat) (e₀ : Engine) (c : Connection) (e : Engine)
    (slot : ConnectionSlot) : Prop where
  occupied : e.slot k = some slot
  handle : slot.handle = ch
  chToSlot : e.chToSlot = e₀.chToSlot
  life : SameLife c slot.inner
  holds : Holds e.endpoint ch ∧ .drained ∉ slot.inner.endpointEvents ↔
    Holds e₀.endpoint ch ∧ .drained ∉ c.endpointEvents

structure Removed (k ch : Nat) (e₀ : Engine) (c : Connection) (e : Engine) : Prop where
  vacant : e.slot k = none
  error : c.error ≠ none
  chToSlot : e.chToSlot = Function.update e₀.chToSlot ch none
  holds : Holds e.endpoint ch ↔ Holds e₀.endpoint ch ∧ .drained ∉ c.endpointEvents

/-- Where draining the slot stands, from `e₀` on with the connection `c`. -/
structure Track (k ch : Nat) (e₀ : Engine) (c : Connection) (e : Engine) : Prop where
  others : ∀ j, j ≠ ch → (Holds e.endpoint j ↔ Holds e₀.endpoint j)
  here : (∃ slot, Running k ch e₀ c e slot) ∨ Removed k ch e₀ c e

section Track

variable {k ch : Nat} {e₀ e e' : Engine} {c : Connection}

theorem Track.of_keeps (h : Track k ch e₀ c e) (hk : Keeps k e e') : Track k ch e₀ c e' := by
  obtain ⟨hothers, ⟨slot, hrun⟩ | hgone⟩ := h
  · obtain ⟨slot', hslot', hhandle, hlife, hevents⟩ := hk.slot slot hrun.occupied
    refine ⟨fun j hj => hk.endpoint ▸ hothers j hj, .inl ⟨slot', hslot', hhandle.trans hrun.handle,
      hk.chToSlot.trans hrun.chToSlot, hrun.life.trans hlife, ?_⟩⟩
    rw [hk.endpoint, hevents]
    exact hrun.holds
  · exact ⟨fun j hj => hk.endpoint ▸ hothers j hj, .inr ⟨hk.vacant hgone.vacant, hgone.error,
      hk.chToSlot.trans hgone.chToSlot, hk.endpoint ▸ hgone.holds⟩⟩

theorem Track.endpointEvent (h : Track k ch e₀ c e)
    (hslot : e.slot k = some slot) {event : EndpointEvent} {inner' : Connection}
    (hpoll : slot.inner.pollEndpointEvents = (some event, inner)) (hlife : SameLife inner inner')
    (hevents : inner'.endpointEvents = inner.endpointEvents) :
    Track k ch e₀ c
      (setInner { e with endpoint := (e.endpoint.handleEvent ch event).2 } k slot inner') := by
  obtain ⟨hothers, ⟨slot₁, hrun⟩ | hgone⟩ := h
  · have heq : slot₁ = slot := Option.some.inj (hrun.occupied.symm.trans hslot)
    subst heq
    unfold Connection.pollEndpointEvents at hpoll
    split at hpoll
    · rename_i rest hlist
      cases hpoll
      refine ⟨?_, .inl ⟨_, slot_setSlot_self hslot _, hrun.handle, hrun.chToSlot,
        hrun.life.trans { hlife with }, ?_⟩⟩
      · intro j hj
        refine (holds_handleEvent e.endpoint ch event j).trans ?_
        rw [← hothers j hj]
        exact ⟨And.left, fun h => ⟨h, fun heq => hj heq.1⟩⟩
      · refine Iff.trans ?_ hrun.holds
        have hhandled := holds_handleEvent e.endpoint ch event ch
        simp only [setInner, setSlot, hevents, hhandled, hlist, List.mem_cons, not_or]
        grind
    · cases hpoll
  · rw [hgone.vacant] at hslot
    cases hslot

theorem Track.drainLastEndpointEvents (h : Track k ch e₀ c e) {fuel : Nat}
    (hfuel : ∀ slot, e.slot k = some slot → slot.inner.endpointEvents.length ≤ fuel) :
    Track k ch e₀ c (drainLastEndpointEvents k ch fuel e) ∧
      InnerHolds (fun c => c.endpointEvents = []) k
        (drainLastEndpointEvents k ch fuel e) := by
  induction fuel generalizing e with
  | zero => exact ⟨h, fun slot hslot => List.length_eq_zero_iff.mp
      (Nat.le_zero.mp (hfuel slot hslot))⟩
  | succ _ ih =>
    unfold drainLastEndpointEvents
    split
    · exact ⟨h, .of_slot_none (by assumption)⟩
    · rename_i slot hslot
      have hlength := hfuel slot hslot
      split
      · rename_i inner hpoll
        refine ⟨h, fun slot' hslot' => ?_⟩
        rw [hslot] at hslot'
        cases hslot'
        unfold Connection.pollEndpointEvents at hpoll
        split at hpoll
        · cases hpoll
        · assumption
      · rename_i event inner hpoll
        refine ih (h.endpointEvent hslot hpoll .refl rfl) ?_
        intro slot' hslot'
        cases (slot_setSlot_self hslot { slot with inner }).symm.trans hslot'
        unfold Connection.pollEndpointEvents at hpoll
        split at hpoll
        · rename_i heq
          cases hpoll
          rw [heq, List.length_cons] at hlength
          exact Nat.le_of_succ_le_succ hlength
        · cases hpoll

theorem Track.pollLost (h : Track k ch e₀ c e) (hlost : ∀ reason, .connectionLost reason ∉ c.events)
    (hslot : e.slot k = some slot) {reason : ConnectionError}
    (hpoll : slot.inner.poll = (some (.connectionLost reason), inner)) :
    c.error ≠ none ∧ Track k ch e₀ { c with error := none } (e.setInner k slot inner) := by
  obtain ⟨hothers, ⟨slot₁, hrun⟩ | hgone⟩ := h
  · have heq : slot₁ = slot := Option.some.inj (hrun.occupied.symm.trans hslot)
    subst heq
    obtain ⟨hstate, herror, htimer, hevents⟩ := hrun.life
    unfold Connection.poll at hpoll
    split at hpoll
    · rename_i heq
      cases hpoll
      exact absurd (hevents reason (heq ▸ List.mem_cons_self)) (hlost reason)
    · split at hpoll
      · cases hpoll
      · split at hpoll
        · rename_i hreason
          cases hpoll
          refine ⟨by simp [← herror, hreason], hothers, .inl ⟨_, slot_setSlot_self hslot _,
            hrun.handle, hrun.chToSlot, ⟨hstate, rfl, htimer, hevents⟩, hrun.holds⟩⟩
        · cases hpoll
  · rw [hgone.vacant] at hslot
    cases hslot

theorem Track.removeLost (h : Track k ch e₀ { c with error := none } e)
    (hevents : InnerHolds (fun c => c.endpointEvents = []) k e) (herror : c.error ≠ none) :
    Track k ch e₀ c (e.removeLost k ch) := by
  obtain ⟨hothers, ⟨slot, hrun⟩ | hgone⟩ := h
  · have hholds := hrun.holds
    rw [hevents slot hrun.occupied] at hholds
    simp only [List.not_mem_nil, not_false_eq_true, and_true] at hholds
    simp only [Engine.removeLost, hrun.occupied]
    refine ⟨hothers, .inr ⟨(Slab.get_remove _ k k).trans (if_pos rfl), herror, ?_, hholds⟩⟩
    change Function.update e.chToSlot ch none = _
    rw [hrun.chToSlot]
  · exact absurd rfl hgone.error

theorem Track.drainRule (replies : Replies) (k ch : Nat) (e₀ : Engine)
    (hlost : ∀ reason, .connectionLost reason ∉ c.events) :
    DrainRule replies k ch (Track k ch e₀ c) where
  poll e slot event inner h hslot hpoll hother := by
    obtain ⟨hlife, hevents⟩ := poll_sameLife hpoll (by simpa using hother)
    exact h.of_keeps (.setSlot hslot rfl hlife hevents)
  pollNone e slot inner h hslot hpoll := by
    obtain ⟨hlife, hevents⟩ := poll_sameLife hpoll (by simp)
    exact h.of_keeps (.setSlot hslot rfl hlife hevents)
  accept e slot dir id streams h hslot _ :=
    h.of_keeps (.of_moves (moves_opened hslot (calm_streams _ streams _) trivial id false))
  acceptNone e slot dir streams h hslot _ :=
    h.of_keeps (.of_moves (moves_setInner hslot (calm_streams _ streams _)))
  drainReadable e id h := h.of_keeps (.of_moves (moves_drainReadableStream calm_reads id))
  wakeSender e id h := h.of_keeps (.of_moves (moves_wakeSender id))
  openNone e slot dir streams h hslot _ :=
    h.of_keeps (.of_moves (moves_setInner hslot (calm_streams _ streams _)))
  openSome e slot dir id streams h hslot _ :=
    h.of_keeps (.of_moves (moves_opened hslot (calm_streams _ streams _) trivial id true))
  markPendingSend e h := h.of_keeps (.of_moves moves_markPendingSend)
  endpointEvent e slot event inner n h hslot hpoll := by
    refine h.endpointEvent hslot hpoll ?_ ?_
    · split_ifs
      · exact ⟨rfl, rfl, ConnectionSteps.Rearm.get_close (replies n) inner.timers, fun _ h => h⟩
      · exact .refl
    · split_ifs <;> rfl
  lost e slot reason inner h hslot hpoll := by
    obtain ⟨herror, hpolled⟩ := h.pollLost hlost hslot hpoll
    have hcount : ∀ slot', (e.setInner k slot inner).slot k = some slot' →
        slot'.inner.endpointEvents.length ≤ (e.setInner k slot inner).endpointEventCount k := by
      intro slot' hslot'
      simp only [endpointEventCount, hslot']
      exact le_rfl
    obtain ⟨hdrained, hempty⟩ := hpolled.drainLastEndpointEvents hcount
    exact hdrained.removeLost hempty herror

end Track

end Quac.DrainTrack
