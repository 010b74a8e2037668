import Mathlib.Logic.Relation
import Quac.TileEngine

/-!
How to reason about `drain_connection_events`: what its elementary steps keep, the
whole keeps.
-/

namespace Quac.EngineSteps

open Bridge Identifiers Lib.Slabs ProtoConnection ProtoEndpoint StreamAccess Streams TileEngine
open TileEngine.Engine Timers

variable {e : Engine} {k : Nat} {old : ConnectionSlot}

theorem slot_setSlot (h : e.slot k = some old) (slot : ConnectionSlot) (j : Nat) :
    (e.setSlot k slot).slot j = if j = k then some slot else e.slot j := by
  have hsome : (e.connections.get k).isSome := by
    rw [show e.connections.get k = some old from h]
    rfl
  exact Slab.get_set _ k slot j hsome

theorem slot_setSlot_self (h : e.slot k = some old)
    (slot : ConnectionSlot) : (e.setSlot k slot).slot k = some slot := by
  rw [slot_setSlot h, if_pos rfl]

theorem slot_setSlot_of_ne {j : Nat} (slot : ConnectionSlot) (h : j ≠ k) :
    (e.setSlot k slot).slot j = e.slot j :=
  Slab.get_set_of_ne _ _ h

theorem slot_addConnection (e : Engine) (ch : Nat) (conn : Connection) (k : Nat) :
    (e.addConnection ch conn).slot k = if k = e.connections.vacantKey then
        some ⟨ch, conn, none, true, fun _ => none, e.nextConn⟩
      else e.slot k :=
  Slab.get_insert _ _ k

def EverySlot (P : Nat → ConnectionSlot → Prop) (e : Engine) : Prop :=
  ∀ k slot, e.slot k = some slot → P k slot

variable {slot : ConnectionSlot}

namespace EverySlot

variable {P : Nat → ConnectionSlot → Prop} {e e' : Engine} {k : Nat}

theorem of_slots (h : EverySlot P e) (hslots : ∀ j, j ≠ k → e'.slot j = e.slot j)
    (hk : ∀ slot, e'.slot k = some slot → P k slot) : EverySlot P e' := by
  intro j slot hslot
  rcases eq_or_ne j k with rfl | hne
  · exact hk slot hslot
  · exact h j slot ((hslots j hne).symm.trans hslot)

theorem of_connections (h : EverySlot P e) (heq : e'.connections = e.connections) :
    EverySlot P e' := by
  intro j slot hslot
  exact h j slot (by rw [Engine.slot, ← heq]; exact hslot)

theorem setSlot (h : EverySlot P e) (hold : e.slot k = some old)
    (hslot : P k slot) : EverySlot P (e.setSlot k slot) := by
  refine h.of_slots (fun _ hj => slot_setSlot_of_ne slot hj) fun slot' hslot' => ?_
  cases (slot_setSlot_self hold slot).symm.trans hslot'
  exact hslot

end EverySlot

/-- `P` is kept by the steps that every rule below has. -/
structure SlotRule (replies : Replies) (slotIdx ch : Nat) (P : Engine → Prop) : Prop where
  pollNone : ∀ e slot inner, P e → e.slot slotIdx = some slot → slot.inner.poll = (none, inner) →
    P (e.setSlot slotIdx { slot with inner, nextTimeout := inner.pollTimeout })
  acceptNone : ∀ e slot dir streams, P e → e.slot slotIdx = some slot →
    acceptStream slot.inner.streams dir = (none, streams) →
    P (e.setInner slotIdx slot { slot.inner with streams })
  wakeSender : ∀ e id, P e → P (e.wakeSender slotIdx id)
  markPendingSend : ∀ e, P e → P (e.markPendingSend slotIdx)
  endpointEvent : ∀ e slot event inner n, P e → e.slot slotIdx = some slot →
    slot.inner.pollEndpointEvents = (some event, inner) →
    P (setInner { e with endpoint := (e.endpoint.handleEvent ch event).2 } slotIdx slot
      (if (e.endpoint.handleEvent ch event).1 then inner.handleEvent (replies n) else inner))
  lost : ∀ e slot reason inner, P e → e.slot slotIdx = some slot →
    slot.inner.poll = (some (.connectionLost reason), inner) →
    P ((drainLastEndpointEvents slotIdx ch
      ((e.setInner slotIdx slot inner).endpointEventCount slotIdx)
      (e.setInner slotIdx slot inner)).removeLost slotIdx ch)

/-- A stream that is reported readable is drained at once, and so is one that the peer
opened. -/
structure ReadRule (slotIdx : Nat) (P : Engine → Prop) : Prop where
  readable : ∀ e slot id inner, P e → e.slot slotIdx = some slot →
    slot.inner.poll = (some (.stream (.readable id)), inner) →
    P ((e.setInner slotIdx slot inner).drainReadableStream slotIdx id)
  acceptBi : ∀ e slot id streams, P e → e.slot slotIdx = some slot →
    acceptStream slot.inner.streams .bi = (some id, streams) →
    P (((e.setInner slotIdx slot { slot.inner with streams }).openStreamCell slotIdx id
      false).drainReadableStream slotIdx id)
  acceptUni : ∀ e slot id streams, P e → e.slot slotIdx = some slot →
    acceptStream slot.inner.streams .uni = (some id, streams) →
    P ((e.setInner slotIdx slot { slot.inner with streams }).openStreamCell slotIdx id false)

structure OpenRule (slotIdx : Nat) (P : Engine → Prop) : Prop where
  openNone : ∀ e slot dir streams, P e → e.slot slotIdx = some slot →
    openStream slot.inner.streams slot.inner.state.isClosed dir = (none, streams) →
    P (e.setInner slotIdx slot { slot.inner with streams })
  openSome : ∀ e slot dir id streams, P e → e.slot slotIdx = some slot →
    openStream slot.inner.streams slot.inner.state.isClosed dir = (some id, streams) →
    P ((e.setInner slotIdx slot { slot.inner with streams }).openStreamCell slotIdx id true)

/-- `P` holds whenever the loop of `drain_connection_events` is at its head.  When
streams become available one is opened at once. -/
structure HeadRule (replies : Replies) (slotIdx ch : Nat) (P : Engine → Prop) : Prop
    extends SlotRule replies slotIdx ch P, ReadRule slotIdx P where
  poll : ∀ e slot event inner, P e → e.slot slotIdx = some slot →
    slot.inner.poll = (some event, inner) → (∀ reason, event ≠ .connectionLost reason) →
    (∀ id, event ≠ .stream (.readable id)) → (∀ dir, event ≠ .stream (.available dir)) →
    P (e.setInner slotIdx slot inner)
  availableNone : ∀ e slot dir inner streams, P e → e.slot slotIdx = some slot →
    slot.inner.poll = (some (.stream (.available dir)), inner) →
    openStream inner.streams inner.state.isClosed dir = (none, streams) →
    P ((e.setInner slotIdx slot inner).setInner slotIdx { slot with inner } { inner with streams })
  availableSome : ∀ e slot dir inner id streams, P e → e.slot slotIdx = some slot →
    slot.inner.poll = (some (.stream (.available dir)), inner) →
    openStream inner.streams inner.state.isClosed dir = (some id, streams) →
    P (((e.setInner slotIdx slot inner).setInner slotIdx { slot with inner }
      { inner with streams }).openStreamCell slotIdx id true)

namespace HeadRule

variable {replies : Replies} {slotIdx ch : Nat} {P : Engine → Prop}

theorem drainEndpointEvents (h : HeadRule replies slotIdx ch P) (fuel : Nat) (he : P e) :
    P (drainEndpointEvents replies slotIdx ch fuel e) := by
  induction fuel generalizing e with
  | zero => exact he
  | succ fuel ih =>
    unfold drainEndpointEvents
    split
    · exact he
    · rename_i slot hslot
      split
      · exact he
      · rename_i event inner hpoll
        exact ih (h.endpointEvent e slot event inner fuel he hslot hpoll)

theorem acceptStreams (h : HeadRule replies slotIdx ch P) (dir : Dir) (fuel : Nat) (he : P e) :
    P (acceptStreams dir slotIdx fuel e) := by
  induction fuel generalizing e with
  | zero => exact he
  | succ _ ih =>
    unfold acceptStreams
    split
    · exact he
    · rename_i slot hslot
      split
      · rename_i streams haccept
        exact h.acceptNone e slot dir streams he hslot haccept
      · rename_i id streams haccept
        cases dir with
        | bi => exact ih (h.acceptBi e slot id streams he hslot haccept)
        | uni => exact ih (h.acceptUni e slot id streams he hslot haccept)

theorem drainEvents (h : HeadRule replies slotIdx ch P) (fuel : Nat) (he : P e) :
    P (drainEvents replies slotIdx ch fuel e) := by
  induction fuel generalizing e with
  | zero => exact he
  | succ _ ih =>
    unfold drainEvents
    split
    · exact he
    · rename_i slot hslot
      split
      · rename_i inner hpoll
        exact h.pollNone e slot inner he hslot hpoll
      · rename_i event inner hpoll
        have hpolled := h.poll e slot event inner he hslot hpoll
        -- The cases are those of the loop's body.
        cases event with
        | handshakeDataReady | handshakeConfirmed | datagramReceived | datagramsUnblocked =>
          exact ih (hpolled (by simp) (by simp) (by simp))
        | connected => exact ih (h.markPendingSend _ (hpolled (by simp) (by simp) (by simp)))
        | connectionLost reason => exact h.lost e slot reason inner he hslot hpoll
        | stream event =>
          cases event with
          | opened dir => exact ih (h.acceptStreams dir _ (hpolled (by simp) (by simp) (by simp)))
          | readable id => exact ih (h.readable e slot id inner he hslot hpoll)
          | writable id => exact ih (h.wakeSender _ id (hpolled (by simp) (by simp) (by simp)))
          | finished | stopped => exact ih (hpolled (by simp) (by simp) (by simp))
          | available dir =>
            rcases hopen : openStream inner.streams inner.state.isClosed dir with ⟨_ | id, streams⟩
            · simp only [hopen]
              exact ih (h.availableNone e slot dir inner streams he hslot hpoll hopen)
            · simp only [hopen]
              have hopened := h.availableSome e slot dir inner id streams he hslot hpoll hopen
              exact ih (ih (h.drainEndpointEvents _ (h.markPendingSend _ hopened)))

theorem drainConnectionEvents
    (hslot : e.slot slotIdx = some slot) (h : HeadRule replies slotIdx slot.handle P)
    (he : P e) : P (drainConnectionEvents replies e slotIdx) := by
  unfold Engine.drainConnectionEvents
  rw [hslot]
  exact h.drainEvents _ (h.drainEndpointEvents _ he)

end HeadRule

/-- The same when `P` holds between an `Available` event and the open that it brings. -/
structure LoopRule (replies : Replies) (slotIdx ch : Nat) (P : Engine → Prop) : Prop
    extends SlotRule replies slotIdx ch P, ReadRule slotIdx P, OpenRule slotIdx P where
  poll : ∀ e slot event inner, P e → e.slot slotIdx = some slot →
    slot.inner.poll = (some event, inner) → (∀ reason, event ≠ .connectionLost reason) →
    (∀ id, event ≠ .stream (.readable id)) → P (e.setInner slotIdx slot inner)

namespace LoopRule

variable {replies : Replies} {slotIdx ch : Nat} {P : Engine → Prop}

theorem headRule (h : LoopRule replies slotIdx ch P) : HeadRule replies slotIdx ch P where
  toSlotRule := h.toSlotRule
  toReadRule := h.toReadRule
  poll e slot event inner he hslot hpoll hlost hreadable _ :=
    h.poll e slot event inner he hslot hpoll hlost hreadable
  availableNone e slot dir inner streams he hslot hpoll hopen :=
    h.openNone _ _ dir streams (h.poll e slot _ inner he hslot hpoll (by simp) (by simp))
      (slot_setSlot_self hslot { slot with inner }) hopen
  availableSome e slot dir inner id streams he hslot hpoll hopen :=
    h.openSome _ _ dir id streams (h.poll e slot _ inner he hslot hpoll (by simp) (by simp))
      (slot_setSlot_self hslot { slot with inner }) hopen

end LoopRule

structure DrainRule (replies : Replies) (slotIdx ch : Nat) (P : Engine → Prop) : Prop
    extends SlotRule replies slotIdx ch P, OpenRule slotIdx P where
  poll : ∀ e slot event inner, P e → e.slot slotIdx = some slot →
    slot.inner.poll = (some event, inner) → (∀ reason, event ≠ .connectionLost reason) →
    P (e.setInner slotIdx slot inner)
  accept : ∀ e slot dir id streams, P e → e.slot slotIdx = some slot →
    acceptStream slot.inner.streams dir = (some id, streams) →
    P ((e.setInner slotIdx slot { slot.inner with streams }).openStreamCell slotIdx id false)
  drainReadable : ∀ e id, P e → P (e.drainReadableStream slotIdx id)

namespace DrainRule

variable {replies : Replies} {slotIdx ch : Nat} {P : Engine → Prop}

theorem loopRule (h : DrainRule replies slotIdx ch P) : LoopRule replies slotIdx ch P where
  toSlotRule := h.toSlotRule
  toOpenRule := h.toOpenRule
  poll e slot event inner he hslot hpoll hlost _ := h.poll e slot event inner he hslot hpoll hlost
  readable e slot id inner he hslot hpoll :=
    h.drainReadable _ id (h.poll e slot _ inner he hslot hpoll (by simp))
  acceptBi e slot id streams he hslot haccept :=
    h.drainReadable _ id (h.accept e slot .bi id streams he hslot haccept)
  acceptUni e slot id streams := h.accept e slot .uni id streams

theorem drainConnectionEvents
    (hslot : e.slot slotIdx = some slot) (h : DrainRule replies slotIdx slot.handle P)
    (he : P e) : P (drainConnectionEvents replies e slotIdx) :=
  HeadRule.drainConnectionEvents hslot h.loopRule.headRule he

end DrainRule

inductive Reads (c : Connection) : Connection → Prop
  | error {id : StreamId} {error : ReadableError} {streams : StreamsState}
      (hnew : Chunks.new id true c.streams = .error (error, streams)) : Reads c { c with streams }
  | chunks {id : StreamId} {chunks : Chunks} (hnew : Chunks.new id true c.streams = .ok chunks)
      (room : Nat) :
      Reads c { c with
        streams := ((readChunks chunks room).2.2.finalize c.pending).1
        pending := ((readChunks chunks room).2.2.finalize c.pending).2 }

inductive InnerStep (c : Connection) : Connection → Prop
  | poll {event : Option Event} {c' : Connection} (h : c.poll = (event, c')) : InnerStep c c'
  | accept {dir : Dir} {id : Option StreamId} {streams : StreamsState}
      (h : acceptStream c.streams dir = (id, streams)) : InnerStep c { c with streams }
  | openStream {dir : Dir} {id : Option StreamId} {streams : StreamsState}
      (h : openStream c.streams c.state.isClosed dir = (id, streams)) :
      InnerStep c { c with streams }
  | reads {c' : Connection} (h : Reads c c') : InnerStep c c'
  | endpointEvent {event : EndpointEvent} {c' : Connection}
      (h : c.pollEndpointEvents = (some event, c')) : InnerStep c c'
  | reply {event : EndpointEvent} {c' : Connection}
      (h : c.pollEndpointEvents = (some event, c')) (rearm : Rearm) :
      InnerStep c (c'.handleEvent rearm)

/-- What work on a slot may do: how it changes the connection, and whether it opens streams
and tells the endpoint of the connection or removes it. -/
structure Permit where
  inner : Connection → Connection → Prop
  opens : Prop
  ends : Prop

def Permit.any : Permit :=
  ⟨fun _ _ => True, True, True⟩

def Permit.sends : Permit :=
  ⟨fun c c' => ∃ input, c' = (c.pollTransmit input).2, False, False⟩

structure Permit.Drains (p : Permit) : Prop where
  inner : ∀ c c', InnerStep c c' → p.inner c c'
  opens : p.opens
  ends : p.ends

theorem Permit.drains_any : Permit.any.Drains :=
  ⟨fun _ _ _ => trivial, trivial, trivial⟩

inductive Move (p : Permit) (k : Nat) (e : Engine) : Engine → Prop
  | slot {slot : ConnectionSlot} (hslot : e.slot k = some slot) {inner : Connection}
      (h : inner = slot.inner ∨ p.inner slot.inner inner) (nextTimeout : Option Instant)
      (hasPendingSend : Bool) :
      Move p k e (e.setSlot k { slot with inner, nextTimeout, hasPendingSend })
  | queued : Move p k e { e with pendingSend := e.pendingSend ++ [k] }
  | opened (h : p.opens) {slot : ConnectionSlot} (hslot : e.slot k = some slot) (id : StreamId)
      (event : ConnEvent) :
      Move p k e (pushEvent (setSlot { e.setCell e.nextCell .new with nextCell := e.nextCell + 1 } k
        { slot with streams := Function.update slot.streams id (some e.nextCell) })
        slot.connState event)
  | woken {slot : ConnectionSlot} (hslot : e.slot k = some slot) {id : StreamId} {cell : CellId}
      (hcell : slot.streams id = some cell) :
      Move p k e (e.setCell cell { e.cells cell with sendWaker := none })
  | delivered {slot : ConnectionSlot} (hslot : e.slot k = some slot) {id : StreamId}
      {cell : CellId} (hcell : slot.streams id = some cell) (data : List Bytes) (fin : Bool) :
      Move p k e (e.setCell cell (deliver (e.cells cell) data fin))
  | endpoint (h : p.ends) (endpoint : Endpoint) : Move p k e { e with endpoint }
  | sent (payload : Bytes) : Move p k e (e.pushTx payload)
  | removed (h : p.ends) {slot : ConnectionSlot} (hslot : e.slot k = some slot) (ch : Nat) :
      Move p k e { e.pushEvent slot.connState .connectionClosed with
        connections := e.connections.remove k
        chToSlot := Function.update e.chToSlot ch none }

abbrev Moves (p : Permit) (k : Nat) : Engine → Engine → Prop :=
  Relation.ReflTransGen (Move p k)

section Moves

variable {p : Permit} {k : Nat} {e : Engine} {slot : ConnectionSlot} {inner : Connection}

theorem moves_setInner (hslot : e.slot k = some slot)
    (h : p.inner slot.inner inner) : Moves p k e (e.setInner k slot inner) :=
  .single (.slot hslot (.inr h) _ _)

theorem moves_setEndpoint (hends : p.ends) (hslot : e.slot k = some slot) (endpoint : Endpoint)
    (h : p.inner slot.inner inner) :
    Moves p k e (setInner { e with endpoint } k slot inner) := by
  have hslot' : Engine.slot { e with endpoint } k = some slot := hslot
  exact .head (.endpoint hends endpoint) (moves_setInner hslot' h)

theorem moves_markPendingSend : Moves p k e (e.markPendingSend k) := by
  unfold markPendingSend
  split
  · rename_i slot hslot
    split_ifs
    · exact .refl
    · exact .tail (.single (.slot hslot (.inl rfl) slot.nextTimeout true)) .queued
  · exact .refl

theorem moves_openStreamCell (hopens : p.opens) (id : StreamId) (isLocal : Bool) :
    Moves p k e (e.openStreamCell k id isLocal) := by
  unfold openStreamCell
  split
  · exact .refl
  · rename_i slot hslot
    exact .single (.opened hopens hslot id _)

theorem moves_opened (hslot : e.slot k = some slot)
    (h : p.inner slot.inner inner) (hopens : p.opens) (id : StreamId) (isLocal : Bool) :
    Moves p k e ((e.setInner k slot inner).openStreamCell k id isLocal) :=
  (moves_setInner hslot h).trans (moves_openStreamCell hopens id isLocal)

theorem moves_wakeSender (id : StreamId) : Moves p k e (e.wakeSender k id) := by
  unfold wakeSender
  split
  · rename_i cell hcell
    obtain ⟨slot, hslot, hstream⟩ := Option.bind_eq_some_iff.mp hcell
    exact .single (.woken hslot hstream)
  · exact .refl

theorem moves_delivered (hslot : e.slot k = some slot) (h : p.inner slot.inner inner)
    {id : StreamId} {cell : CellId} (hcell : slot.streams id = some cell) (data : List Bytes)
    (fin : Bool) :
    Moves p k e ((e.setInner k slot inner).setCell cell (deliver (e.cells cell) data fin)) := by
  refine .tail (moves_setInner hslot h) ?_
  exact .delivered (slot_setSlot_self hslot { slot with inner }) hcell data fin

theorem moves_drainReadableStream (hreads : ∀ c c', Reads c c' → p.inner c c') (id : StreamId) :
    Moves p k e (e.drainReadableStream k id) := by
  unfold drainReadableStream
  split
  · exact .refl
  · rename_i slot hslot
    split
    · exact .refl
    · rename_i cell hcell
      dsimp only
      split_ifs
      · exact .refl
      · split
        · rename_i hnew
          exact moves_setInner hslot (hreads _ _ (.error hnew))
        · rename_i hnew
          exact moves_delivered hslot (hreads _ _ (.chunks hnew _)) hcell _ _

theorem moves_drainLastEndpointEvents (hinner : ∀ c c', InnerStep c c' → p.inner c c')
    (hends : p.ends) (ch fuel : Nat) :
    Moves p k e (drainLastEndpointEvents k ch fuel e) := by
  induction fuel generalizing e with
  | zero => exact .refl
  | succ _ ih =>
    unfold drainLastEndpointEvents
    split
    · exact .refl
    · rename_i slot hslot
      split
      · exact .refl
      · rename_i event inner hpoll
        exact (moves_setEndpoint hends hslot _ (hinner _ _ (.endpointEvent hpoll))).trans ih

theorem moves_removeLost (hends : p.ends) (ch : Nat) : Moves p k e (e.removeLost k ch) := by
  unfold removeLost
  split
  · exact .refl
  · rename_i slot hslot
    exact .single (.removed hends hslot ch)

theorem drainRule_of_moves {P : Engine → Prop} (hinner : ∀ c c', InnerStep c c' → p.inner c c')
    (hends : p.ends) (hkeep : ∀ {e e' : Engine}, P e → Moves p k e e' → P e') (replies : Replies)
    (ch : Nat)
    (haccept : ∀ e slot dir id streams, P e → e.slot k = some slot →
      acceptStream slot.inner.streams dir = (some id, streams) →
      P ((e.setInner k slot { slot.inner with streams }).openStreamCell k id false))
    (hopen : ∀ e slot dir id streams, P e → e.slot k = some slot →
      openStream slot.inner.streams slot.inner.state.isClosed dir = (some id, streams) →
      P ((e.setInner k slot { slot.inner with streams }).openStreamCell k id true)) :
    DrainRule replies k ch P where
  poll _ _ _ _ h hslot hpoll _ := hkeep h (moves_setInner hslot (hinner _ _ (.poll hpoll)))
  pollNone _ _ _ h hslot hpoll :=
    hkeep h (.single (.slot hslot (.inr (hinner _ _ (.poll hpoll))) _ _))
  accept := haccept
  acceptNone _ _ _ _ h hslot h' := hkeep h (moves_setInner hslot (hinner _ _ (.accept h')))
  drainReadable _ id h :=
    hkeep h (moves_drainReadableStream (fun _ _ hreads => hinner _ _ (.reads hreads)) id)
  wakeSender _ id h := hkeep h (moves_wakeSender id)
  openNone _ _ _ _ h hslot h' := hkeep h (moves_setInner hslot (hinner _ _ (.openStream h')))
  openSome := hopen
  markPendingSend _ h := hkeep h moves_markPendingSend
  endpointEvent _ _ _ _ n h hslot hpoll := by
    refine hkeep h (moves_setEndpoint hends hslot _ ?_)
    split_ifs
    · exact hinner _ _ (.reply hpoll _)
    · exact hinner _ _ (.endpointEvent hpoll)
  lost _ _ _ _ h hslot hpoll :=
    hkeep h (((moves_setInner hslot (hinner _ _ (.poll hpoll))).trans
      (moves_drainLastEndpointEvents hinner hends ch _)).trans (moves_removeLost hends ch))

theorem Permit.Drains.rule (hp : p.Drains) (replies : Replies) (k ch : Nat) (e₀ : Engine) :
    DrainRule replies k ch (Moves p k e₀) :=
  drainRule_of_moves hp.inner hp.ends .trans replies ch
    (fun _ _ _ id _ h hslot haccept =>
      h.trans (moves_opened hslot (hp.inner _ _ (.accept haccept)) hp.opens id false))
    fun _ _ _ id _ h hslot hopen =>
      h.trans (moves_opened hslot (hp.inner _ _ (.openStream hopen)) hp.opens id true)

theorem moves_drainConnectionEvents (hp : p.Drains) (replies : Replies) (e : Engine) (k : Nat) :
    Moves p k e (drainConnectionEvents replies e k) := by
  rcases hslot : e.slot k with _ | _
  · simp only [drainConnectionEvents, hslot]
    exact .refl
  · exact DrainRule.drainConnectionEvents hslot (hp.rule _ _ _ e) .refl

theorem moves_act (act : Connection → Connection) (h : ∀ c, p.inner c (act c)) : Moves p k e
      (match e.slot k with
      | some slot => (e.setInner k slot (act slot.inner)).markPendingSend k
      | none => e) := by
  split
  · rename_i slot hslot
    exact (moves_setInner hslot (h _)).trans moves_markPendingSend
  · exact .refl

theorem moves_processCommand (hp : p.Drains)
    (hstreams : ∀ c streams pending, p.inner c { c with streams, pending })
    (hclose : ∀ c now pto, p.inner c (c.closeInner now pto)) (input : CommandInput)
    (cmd : TileAppCommand) : Moves p cmd.conn e (e.processCommand input cmd) := by
  have hwith : ∀ k act, (∀ c, p.inner c (act c)) → Moves p k e (e.withSlot input k act) :=
    fun k act h => (moves_act act h).trans (moves_drainConnectionEvents hp _ _ k)
  cases cmd with
  | openStream conn dir =>
    simp only [processCommand]
    split
    · exact .refl
    · rename_i slot hslot
      rcases openStream slot.inner.streams slot.inner.state.isClosed dir with ⟨_ | id, streams⟩
      · exact moves_setInner hslot (hstreams _ streams _)
      · exact ((moves_opened hslot (hstreams _ streams _) hp.opens id true).trans
          moves_markPendingSend).trans (moves_drainConnectionEvents hp _ _ conn)
  | write conn | finish conn | resetStream conn =>
    rw [processCommand]
    exact hwith conn _ fun c => hstreams c _ _
  | closeConn conn =>
    rw [processCommand]
    exact hwith conn _ fun c => hclose c _ _

theorem moves_fireTimer (hp : p.Drains) (now : Instant) (input : Connection.TimeoutInput)
    (h : ∀ c : Connection, p.inner c (c.handleTimeout now input)) (replies : Replies) (k : Nat) :
    Moves p k e (e.fireTimer now input replies k) :=
  (moves_act (fun c => c.handleTimeout now input) h).trans (moves_drainConnectionEvents hp _ _ k)

theorem moves_beginTransmit (k : Nat) : Moves p k e (e.beginTransmit k) := by
  unfold beginTransmit
  split
  · exact .refl
  · rename_i slot hslot
    exact .single (.slot hslot (.inl rfl) slot.nextTimeout false)

theorem moves_transmitOnce {input : Connection.TransmitInput}
    (h : ∀ c : Connection, p.inner c (c.pollTransmit input).2) (firstPoll : Bool) (k : Nat) :
    Moves p k e (e.transmitOnce input firstPoll k).2 := by
  unfold transmitOnce
  split
  · exact .refl
  · rename_i slot hslot
    have hinner := h slot.inner
    split
    · rename_i inner hpoll
      rw [hpoll] at hinner
      split_ifs
      · exact moves_setInner hslot hinner
      · exact .tail (.single (.slot hslot (.inr hinner) slot.nextTimeout true)) .queued
    · rename_i inner hpoll
      rw [hpoll] at hinner
      exact .tail (.single (.slot hslot (.inr hinner) inner.pollTimeout slot.hasPendingSend))
        (.sent _)

theorem moves_enqueueProtoTransmit (transmit : Transmit) :
    Moves p k e (e.enqueueProtoTransmit transmit) := by
  unfold enqueueProtoTransmit
  split_ifs
  · exact .refl
  · exact .single (.sent _)

theorem slot_of_moves {P : ConnectionSlot → Prop} {e' : Engine}
    (h : ∀ slot, e.slot k = some slot → P slot) (hmoves : Moves p k e e')
    (hset : ∀ slot inner nextTimeout hasPendingSend,
      inner = slot.inner ∨ p.inner slot.inner inner → P slot →
      P { slot with inner, nextTimeout, hasPendingSend })
    (hopened : p.opens → ∀ slot streams, P slot → P { slot with streams }) :
    ∀ slot, e'.slot k = some slot → P slot := by
  induction hmoves with
  | refl => exact h
  | tail _ hmove ih =>
    intro slot hslot
    cases hmove with
    | slot hold hinner =>
      cases (slot_setSlot_self hold _).symm.trans hslot
      exact hset _ _ _ _ hinner (ih _ hold)
    | opened hopens hold =>
      cases (slot_setSlot_self hold _).symm.trans hslot
      exact hopened hopens _ _ (ih _ hold)
    | removed => cases hslot.symm.trans ((Slab.get_remove _ k k).trans (if_pos rfl))
    | _ => exact ih slot hslot

theorem work_drain (replies : Replies) (e : Engine) (k : Nat) :
    Moves .any k e (drainConnectionEvents replies e k) :=
  moves_drainConnectionEvents Permit.drains_any replies e k

theorem work_processCommand (e : Engine) (input : CommandInput) (cmd : TileAppCommand) :
    Moves .any cmd.conn e (e.processCommand input cmd) :=
  moves_processCommand Permit.drains_any (fun _ _ _ => trivial) (fun _ _ _ => trivial) input cmd

theorem work_fireTimer (e : Engine) (now : Instant) (input : Connection.TimeoutInput)
    (replies : Replies) (k : Nat) : Moves .any k e (e.fireTimer now input replies k) :=
  moves_fireTimer Permit.drains_any now input (fun _ => trivial) replies k

end Moves

/-- What work on one slot leaves alone. -/
structure Local (slotIdx : Nat) (e e' : Engine) : Prop where
  slots : ∀ k, k ≠ slotIdx → e'.slot k = e.slot k
  keeps : ∀ slot', e'.slot slotIdx = some slot' → ∃ slot, e.slot slotIdx = some slot ∧
    slot'.connState = slot.connState ∧ slot'.handle = slot.handle
  cmdQueue : e'.cmdQueue = e.cmdQueue
  rxQueues : e'.rxQueues = e.rxQueues
  incoming : e'.incoming = e.incoming
  nextConn : e'.nextConn = e.nextConn

namespace Local

variable {slotIdx : Nat} {e e' e'' : Engine}

theorem refl : Local slotIdx e e where
  slots _ _ := rfl
  keeps slot' h := ⟨slot', h, rfl, rfl⟩
  cmdQueue := rfl
  rxQueues := rfl
  incoming := rfl
  nextConn := rfl

theorem trans (h : Local slotIdx e e') (h' : Local slotIdx e' e'') : Local slotIdx e e'' where
  slots k hk := (h'.slots k hk).trans (h.slots k hk)
  keeps slot'' hslot'' := by
    obtain ⟨slot', hslot', hconn', hhandle'⟩ := h'.keeps slot'' hslot''
    obtain ⟨slot, hslot, hconn, hhandle⟩ := h.keeps slot' hslot'
    exact ⟨slot, hslot, hconn'.trans hconn, hhandle'.trans hhandle⟩
  cmdQueue := h'.cmdQueue.trans h.cmdQueue
  rxQueues := h'.rxQueues.trans h.rxQueues
  incoming := h'.incoming.trans h.incoming
  nextConn := h'.nextConn.trans h.nextConn

theorem of_moves {p : Permit} (h : Moves p slotIdx e e') : Local slotIdx e e' := by
  induction h with
  | refl => exact refl
  | tail _ hmove ih =>
    refine ih.trans ?_
    cases hmove with
    | slot hslot | opened _ hslot =>
      refine ⟨fun _ hk => slot_setSlot_of_ne _ hk, fun slot' h => ?_, rfl, rfl, rfl, rfl⟩
      cases (slot_setSlot_self hslot _).symm.trans h
      exact ⟨_, hslot, rfl, rfl⟩
    | removed =>
      refine ⟨fun k hk => (Slab.get_remove _ slotIdx k).trans (if_neg hk), fun slot' h => ?_,
        rfl, rfl, rfl, rfl⟩
      cases h.symm.trans ((Slab.get_remove _ slotIdx slotIdx).trans (if_pos rfl))
    | _ => exact ⟨fun _ _ => rfl, fun slot' h => ⟨slot', h, rfl, rfl⟩, rfl, rfl, rfl, rfl⟩

theorem drainConnectionEvents (replies : Replies) (e : Engine) (slotIdx : Nat) :
    Local slotIdx e (drainConnectionEvents replies e slotIdx) :=
  of_moves (work_drain replies e slotIdx)

theorem act (e : Engine) (slotIdx : Nat) (act : Connection → Connection) : Local slotIdx e
      (match e.slot slotIdx with
      | some slot => (e.setInner slotIdx slot (act slot.inner)).markPendingSend slotIdx
      | none => e) :=
  of_moves (p := .any) (moves_act act fun _ => trivial)

theorem processCommand (e : Engine) (input : CommandInput) (cmd : TileAppCommand) :
    Local cmd.conn e (e.processCommand input cmd) :=
  of_moves (work_processCommand e input cmd)

end Local

theorem EverySlot.of_moves {p : Permit} {e' : Engine}
    {P : Nat → ConnectionSlot → Prop} (h : EverySlot P e) (hmoves : Moves p k e e')
    (hset : ∀ slot inner nextTimeout hasPendingSend,
      inner = slot.inner ∨ p.inner slot.inner inner → P k slot →
      P k { slot with inner, nextTimeout, hasPendingSend })
    (hopened : p.opens → ∀ slot streams, P k slot → P k { slot with streams }) : EverySlot P e' :=
  h.of_slots (Local.of_moves hmoves).slots (slot_of_moves (h k) hmoves hset hopened)

structure Answered (e e' : Engine) : Prop where
  connections : e'.connections = e.connections
  chToSlot : e'.chToSlot = e.chToSlot
  cells : e'.cells = e.cells
  nextCell : e'.nextCell = e.nextCell
  moves : ∀ slotIdx, Moves .any slotIdx e e'

theorem Answered.slots {e' : Engine} (h : Answered e e') (slotIdx : Nat) : Local slotIdx e e' :=
  .of_moves (h.moves slotIdx)

theorem Answered.enqueueProtoTransmit (e : Engine) (transmit : Transmit) :
    Answered e (e.enqueueProtoTransmit transmit) := by
  refine ⟨?_, ?_, ?_, ?_, fun _ => moves_enqueueProtoTransmit transmit⟩
  all_goals
    unfold Engine.enqueueProtoTransmit
    split_ifs <;> rfl

def Accepts (e : Engine) (replies : Replies) (event : DatagramEvent) : Prop :=
  ∃ incoming ch conn endpoint, event = .newConnection incoming ∧
    e.endpoint.accept e.serverConfig incoming = (.ok (ch, conn), endpoint) ∧
    e.dispatch replies event = drainConnectionEvents replies
      (addConnection { e with endpoint } ch conn) e.connections.vacantKey

/-- A datagram is answered by the endpoint, or handled by one connection, which is
then drained, or a connection is accepted. -/
theorem dispatch_work (e : Engine) (replies : Replies) (event : DatagramEvent) :
    Answered e (e.dispatch replies event) ∨
    (∃ ch datagram slotIdx, event = .forConnection ch datagram ∧ e.chToSlot ch = some slotIdx ∧
      e.dispatch replies event = drainConnectionEvents replies
        (match e.slot slotIdx with
        | some slot =>
          (e.setInner slotIdx slot (slot.inner.handleDatagram datagram)).markPendingSend slotIdx
        | none => e) slotIdx) ∨
    Accepts e replies event := by
  have hsame : ∀ endpoint : Endpoint, Answered e { e with endpoint } :=
    fun _ => ⟨rfl, rfl, rfl, rfl, fun _ => .single (.endpoint trivial _)⟩
  rcases event with ⟨ch, datagram⟩ | incoming | transmit | _
  · rcases hslot : e.chToSlot ch with _ | slotIdx
    · simp only [dispatch, hslot]
      exact .inl (hsame e.endpoint)
    · simp only [dispatch, hslot]
      exact .inr (.inl ⟨ch, datagram, slotIdx, rfl, hslot, rfl⟩)
  · rcases haccept :
      e.endpoint.accept e.serverConfig incoming with ⟨response | ⟨ch, conn⟩, endpoint⟩
    · left
      have hend := hsame endpoint
      simp only [dispatch, haccept]
      rcases response with _ | transmit
      · exact hend
      · have hsent := Answered.enqueueProtoTransmit { e with endpoint } transmit
        exact ⟨hsent.connections, hsent.chToSlot, hsent.cells, hsent.nextCell, fun slotIdx =>
          (hend.moves slotIdx).trans (hsent.moves slotIdx)⟩
    · refine .inr (.inr ⟨incoming, ch, conn, endpoint, rfl, haccept, ?_⟩)
      simp only [dispatch, haccept]
  · exact .inl (.enqueueProtoTransmit e transmit)
  · exact .inl (hsame e.endpoint)

theorem dispatch_cases (e : Engine) (replies : Replies) (event : DatagramEvent) :
    (∃ slotIdx, Moves .any slotIdx e (e.dispatch replies event)) ∨
      Accepts e replies event := by
  obtain hanswered | ⟨_, datagram, slotIdx, -, -, heq⟩ | haccepted := dispatch_work e replies event
  · exact .inl ⟨0, hanswered.moves 0⟩
  · rw [heq]
    exact .inl ⟨slotIdx, (moves_act (fun c => c.handleDatagram datagram) fun _ => trivial).trans
      (work_drain _ _ _)⟩
  · exact .inr haccepted

end Quac.EngineSteps
