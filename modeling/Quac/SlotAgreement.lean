import Quac.DrainTrack
import Quac.TimerSync

/-!
The engine's slots, its map from handles to slots and the endpoint's connections.
-/

namespace Quac.SlotAgreement

open Bridge
open ConnectionSteps (Steady)
open DrainTrack EngineSettles EngineSteps Function
open HandleIsolation (config replies newClient datagram initialPacket)
open Lib.BoundedQueue Lib.Slabs Lib.Transition Lifecycle
open ProtoConnection hiding State
open ProtoEndpoint StreamAccess Tile TileEngine Engine
open TimerSync (transmit noTimeout)

/-- The map is a bijection between the handles of the occupied slots and those of
the connections that the endpoint holds. -/
structure Agreement (e : Engine) : Prop where
  slots : ∀ ch k, e.chToSlot ch = some k ↔ ∃ slot, e.slot k = some slot ∧ slot.handle = ch
  endpoint : ∀ ch, Holds e.endpoint ch ↔ ∃ k, e.chToSlot ch = some k

def NoneClosed (e : Engine) : Prop :=
  ∀ k slot, e.slot k = some slot → slot.inner.state.isClosed = false

structure AtRest (e : Engine) : Prop extends Agreement e where
  open_ : NoneClosed e
  sound : ∀ k slot, e.slot k = some slot → Sound slot.inner

structure AtWork (k : Nat) (e : Engine) : Prop extends Agreement e where
  open_ : ∀ j slot, j ≠ k → e.slot j = some slot → slot.inner.state.isClosed = false
  sound : ∀ j slot, j ≠ k → e.slot j = some slot → Sound slot.inner
  ending : ∀ slot, e.slot k = some slot → Ending slot.inner

section

variable {e e' : Engine} {k : Nat} {slot : ConnectionSlot}

theorem AtRest.ending (h : AtRest e) (hslot : e.slot k = some slot) :
    Ending slot.inner :=
  ⟨h.sound k slot hslot, fun hclosed => by
    rw [h.open_ k slot hslot] at hclosed
    cases hclosed⟩

theorem AtRest.atWork (h : AtRest e) (k : Nat) : AtWork k e :=
  ⟨h.toAgreement, fun j slot _ => h.open_ j slot, fun j slot _ => h.sound j slot, fun _ => h.ending⟩

variable {slot' : ConnectionSlot}

theorem Agreement.of_running {c : Connection} (h : Agreement e)
    (hslot : e.slot k = some slot) (hlocal : Local k e e')
    (hrun : Running k slot.handle e c e' slot')
    (hholds : ∀ j, Holds e'.endpoint j ↔ Holds e.endpoint j) : Agreement e' := by
  refine ⟨fun ch j => ?_, fun ch => by rw [hholds, hrun.chToSlot]; exact h.endpoint ch⟩
  rw [hrun.chToSlot, h.slots]
  rcases eq_or_ne j k with rfl | hne
  · simp [hslot, hrun.occupied, hrun.handle]
  · rw [hlocal.slots j hne]

theorem Agreement.of_removed {c : Connection} (h : Agreement e)
    (hslot : e.slot k = some slot) (hlocal : Local k e e')
    (hgone : Removed k slot.handle e c e') (hdrained : .drained ∈ c.endpointEvents)
    (hholds : ∀ j, j ≠ slot.handle → (Holds e'.endpoint j ↔ Holds e.endpoint j)) :
    Agreement e' := by
  have hmap : ∀ ch, e'.chToSlot ch = if ch = slot.handle then none else e.chToSlot ch := by
    intro ch
    rw [hgone.chToSlot, update_apply]
  constructor
  · intro ch j
    rw [hmap]
    split_ifs with hch
    · -- No other slot has the handle.
      refine ⟨fun h => (by cases h), ?_⟩
      rintro ⟨slot', hslot', rfl⟩
      rcases eq_or_ne j k with rfl | hne
      · rw [hgone.vacant] at hslot'
        cases hslot'
      · rw [hlocal.slots j hne] at hslot'
        have hj := (h.slots slot'.handle j).mpr ⟨slot', hslot', rfl⟩
        have hk := (h.slots slot'.handle k).mpr ⟨slot, hslot, hch.symm⟩
        exact absurd (Option.some.inj (hj.symm.trans hk)) hne
    · rw [h.slots]
      rcases eq_or_ne j k with rfl | hne
      · simp [hslot, hgone.vacant, Ne.symm hch]
      · rw [hlocal.slots j hne]
  · intro ch
    rw [hmap]
    split_ifs with hch
    · subst hch
      simp [hgone.holds, hdrained]
    · rw [hholds ch hch]
      exact h.endpoint ch

theorem AtWork.atRest (h : AtWork k e) (hslots : ∀ j, j ≠ k → e'.slot j = e.slot j)
    (hagree : Agreement e')
    (hk : ∀ slot, e'.slot k = some slot → slot.inner.state.isClosed = false ∧ Sound slot.inner) :
    AtRest e' := by
  refine ⟨hagree, ?_, ?_⟩
  · intro j slot hslot
    rcases eq_or_ne j k with rfl | hne
    · exact (hk slot hslot).1
    · exact h.open_ j slot hne ((hslots j hne).symm.trans hslot)
  · intro j slot hslot
    rcases eq_or_ne j k with rfl | hne
    · exact (hk slot hslot).2
    · exact h.sound j slot hne ((hslots j hne).symm.trans hslot)

theorem AtWork.atRest_of_running (h : AtWork k e) (hlocal : Local k e e')
    (hslot : e.slot k = some slot)
    (hothers : ∀ j, j ≠ slot.handle → (Holds e'.endpoint j ↔ Holds e.endpoint j))
    (hrun : Running k slot.handle e slot.inner e' slot') (hsettled : slot'.inner.error = none) :
    AtRest e' := by
  have hending := h.ending slot hslot
  have hopen : slot.inner.state.isClosed = false := by
    by_contra hclosed
    exact hending.closed (by simpa using hclosed) (hrun.life.error.symm.trans hsettled)
  obtain ⟨_, hdrained, htimer⟩ := hending.alive hopen
  have hheld : Holds e.endpoint slot.handle :=
    (h.endpoint slot.handle).mpr ⟨k, (h.slots slot.handle k).mpr ⟨slot, hslot, rfl⟩⟩
  obtain ⟨hheld', hdrained'⟩ := hrun.holds.mpr ⟨hheld, hdrained⟩
  have hholds : ∀ j, Holds e'.endpoint j ↔ Holds e.endpoint j := by
    intro j
    rcases eq_or_ne j slot.handle with rfl | hne
    · exact iff_of_true hheld' hheld
    · exact hothers j hne
  have hstate : slot'.inner.state.isClosed = false := by rw [hrun.life.state, hopen]
  refine h.atRest hlocal.slots (h.toAgreement.of_running hslot hlocal hrun hholds) ?_
  intro s hs
  cases hrun.occupied.symm.trans hs
  refine ⟨hstate, fun reason hr => hending.lost reason (hrun.life.lost reason hr),
    fun _ => ?_, ?_, ?_⟩
  · exact ⟨hsettled, hdrained', hrun.life.closeTimer.trans htimer⟩
  · intro hclosed
    rw [hstate] at hclosed
    cases hclosed
  · intro hd
    rw [hd] at hstate
    cases hstate

theorem AtWork.drained (h : AtWork k e) (replies : Replies) :
    AtRest (drainConnectionEvents replies e k) := by
  rcases hslot : e.slot k with _ | slot
  · simp only [drainConnectionEvents, hslot]
    refine h.atRest (fun _ _ => rfl) h.toAgreement ?_
    intro slot hs
    rw [hslot] at hs
    cases hs
  · have hending := h.ending slot hslot
    have hlocal := Local.drainConnectionEvents replies e k
    obtain ⟨hothers, ⟨slot', hrun⟩ | hgone⟩ : Track k slot.handle e slot.inner
        (drainConnectionEvents replies e k) :=
      DrainRule.drainConnectionEvents hslot (Track.drainRule _ _ _ e hending.lost)
        ⟨fun _ _ => Iff.rfl, .inl ⟨slot, hslot, rfl, rfl, .refl, Iff.rfl⟩⟩
    · exact h.atRest_of_running hlocal hslot hothers hrun
        (drainConnectionEvents_settled replies e k slot' hrun.occupied).error
    · have hclosed : slot.inner.state.isClosed = true := by
        by_contra hopen
        exact hgone.error (hending.alive (by simpa using hopen)).1
      have hdrained := hending.drained (hending.ended hclosed)
      refine h.atRest hlocal.slots
        (h.toAgreement.of_removed hslot hlocal hgone hdrained hothers) ?_
      intro s hs
      rw [hgone.vacant] at hs
      cases hs

theorem Agreement.setSlot (h : Agreement e)
    (hslot : e.slot k = some slot) (hhandle : slot'.handle = slot.handle) :
    Agreement (e.setSlot k slot') := by
  refine ⟨fun ch j => (h.slots ch j).trans ?_, h.endpoint⟩
  rw [slot_setSlot hslot]
  split_ifs with heq
  · subst heq
    simp [hslot, hhandle]
  · rfl

theorem AtWork.setSlot (h : AtWork k e)
    (hslot : e.slot k = some slot) (hhandle : slot'.handle = slot.handle)
    (hending : Ending slot'.inner) : AtWork k (e.setSlot k slot') := by
  refine ⟨h.toAgreement.setSlot hslot hhandle, ?_, ?_, ?_⟩
  · intro j s hne hs
    rw [slot_setSlot_of_ne _ hne] at hs
    exact h.open_ j s hne hs
  · intro j s hne hs
    rw [slot_setSlot_of_ne _ hne] at hs
    exact h.sound j s hne hs
  · intro s hs
    rw [slot_setSlot_self hslot] at hs
    cases hs
    exact hending

theorem AtRest.setSlot (h : AtRest e)
    (hslot : e.slot k = some slot) (hhandle : slot'.handle = slot.handle)
    (hsteady : Steady slot.inner slot'.inner) : AtRest (e.setSlot k slot') := by
  refine (h.atWork k).atRest (fun j hj => slot_setSlot_of_ne slot' hj)
    (h.toAgreement.setSlot hslot hhandle) ?_
  intro s hs
  rw [slot_setSlot_self hslot] at hs
  cases hs
  exact ⟨hsteady.isClosed.trans (h.open_ k slot hslot), (h.sound k slot hslot).of_steady hsteady⟩

theorem Agreement.of_eq (h : Agreement e) (hslots : e'.connections = e.connections)
    (hmap : e'.chToSlot = e.chToSlot)
    (hholds : ∀ ch, Holds e'.endpoint ch ↔ Holds e.endpoint ch) : Agreement e' := by
  constructor
  · intro ch j
    rw [hmap, slot, hslots]
    exact h.slots ch j
  · intro ch
    rw [hholds, hmap]
    exact h.endpoint ch

theorem AtWork.of_eq (h : AtWork k e) (hslots : e'.connections = e.connections)
    (hmap : e'.chToSlot = e.chToSlot) (hendpoint : e'.endpoint = e.endpoint) : AtWork k e' := by
  have heq : ∀ j, e'.slot j = e.slot j := fun j => by rw [slot, slot, hslots]
  exact ⟨h.toAgreement.of_eq hslots hmap (by simp [hendpoint]),
    fun j slot hne hslot => h.open_ j slot hne ((heq j).symm.trans hslot),
    fun j slot hne hslot => h.sound j slot hne ((heq j).symm.trans hslot),
    fun slot hslot => h.ending slot ((heq k).symm.trans hslot)⟩

theorem AtRest.of_eq (h : AtRest e) (hslots : e'.connections = e.connections)
    (hmap : e'.chToSlot = e.chToSlot)
    (hholds : ∀ ch, Holds e'.endpoint ch ↔ Holds e.endpoint ch) : AtRest e' := by
  have heq : ∀ j, e'.slot j = e.slot j := fun j => by rw [slot, slot, hslots]
  exact ⟨h.toAgreement.of_eq hslots hmap hholds,
    fun j slot hslot => h.open_ j slot ((heq j).symm.trans hslot),
    fun j slot hslot => h.sound j slot ((heq j).symm.trans hslot)⟩

/-- What keeps the connection, the map and the endpoint. -/
theorem AtWork.of_moves (h : AtWork k e) (hmoves : Moves ⟨fun _ _ => False, True, False⟩ k e e') :
    AtWork k e' := by
  induction hmoves with
  | refl => exact h
  | @tail e _ _ hmove ih =>
    cases hmove with
    | slot hslot hinner =>
      have hending := ih.ending _ hslot
      rcases hinner with rfl | hinner
      · exact ih.setSlot hslot rfl hending
      · exact hinner.elim
    | @opened _ slot hslot id =>
      have hset : AtWork k (e.setSlot k
          { slot with streams := update slot.streams id (some e.nextCell) }) :=
        ih.setSlot hslot rfl (ih.ending slot hslot)
      exact hset.of_eq rfl rfl rfl
    | endpoint h | removed h => exact h.elim
    | _ => exact ih.of_eq rfl rfl rfl

theorem AtRest.act (h : AtRest e) (replies : Replies) (f : Connection → Connection)
    (hf : ∀ slot, e.slot k = some slot → Ending (f slot.inner)) :
    AtRest (drainConnectionEvents replies
      (match e.slot k with
      | some slot => (e.setInner k slot (f slot.inner)).markPendingSend k
      | none => e) k) := by
  refine AtWork.drained ?_ replies
  split
  · rename_i slot hslot
    have hset : AtWork k (e.setInner k slot (f slot.inner)) :=
      (h.atWork k).setSlot hslot rfl (hf slot hslot)
    exact hset.of_moves moves_markPendingSend
  · exact h.atWork k

theorem AtRest.withSlot (h : AtRest e) (input : Engine.CommandInput) (f : Connection → Connection)
    (hf : ∀ slot, e.slot k = some slot → Ending (f slot.inner)) : AtRest (e.withSlot input k f) :=
  h.act input.replies f hf

theorem AtRest.withSlot_steady (h : AtRest e) (input : Engine.CommandInput)
    (f : Connection → Connection) (hf : ∀ c, Steady c (f c)) : AtRest (e.withSlot input k f) :=
  h.withSlot input f fun _ hslot => (h.ending hslot).of_steady (hf _)

end

theorem steady_streams (c : Connection) (streams : Streams.StreamsState)
    (pending : Streams.Retransmits) : Steady c { c with streams, pending } :=
  .of_eq rfl rfl rfl (.of_eq rfl rfl)

theorem AtRest.processCommand {e : Engine} (h : AtRest e) (input : Engine.CommandInput)
    {cmd : TileAppCommand} (hclose : ∀ conn, cmd = .closeConn conn → e.slot conn = none) :
    AtRest (e.processCommand input cmd) := by
  cases cmd with
  | openStream conn dir =>
    simp only [Engine.processCommand]
    split
    · exact h
    · rename_i slot hslot
      rcases hopen : openStream slot.inner.streams slot.inner.state.isClosed dir
        with ⟨_ | id, streams⟩
      · exact h.setSlot hslot rfl (steady_streams _ _ _)
      · have hset : AtRest (e.setInner conn slot { slot.inner with streams }) :=
          h.setSlot hslot rfl (steady_streams _ _ _)
        exact ((hset.atWork conn).of_moves ((moves_openStreamCell trivial id true).trans
          moves_markPendingSend)).drained input.replies
  | write | finish =>
    rw [Engine.processCommand]
    exact h.withSlot_steady input _ fun c => steady_streams c _ c.pending
  | resetStream =>
    rw [Engine.processCommand]
    exact h.withSlot_steady input _ fun c => steady_streams c _ _
  | closeConn conn =>
    rw [Engine.processCommand]
    refine h.withSlot input _ fun slot hslot => ?_
    rw [hclose conn rfl] at hslot
    cases hslot

theorem AtRest.addConnection {e : Engine} (h : AtRest e) {endpoint : Endpoint} {ch : Nat}
    {conn : Connection} (hending : Ending conn) (hfresh : ¬ Holds e.endpoint ch)
    (hholds : ∀ j, Holds endpoint j ↔ j = ch ∨ Holds e.endpoint j) :
    AtWork e.connections.vacantKey (addConnection { e with endpoint } ch conn) := by
  have hslot := slot_addConnection { e with endpoint } ch conn
  have hvacant : e.slot e.connections.vacantKey = none := Slab.get_vacantKey _
  have hother : ∀ j slot, j ≠ e.connections.vacantKey →
      (Engine.addConnection { e with endpoint } ch conn).slot j = some slot →
      e.slot j = some slot :=
    fun j slot hne hs => ((hslot j).trans (if_neg hne)).symm.trans hs
  refine ⟨⟨?_, ?_⟩, ?_, ?_, ?_⟩
  · intro j k
    change update e.chToSlot ch _ j = some k ↔ _
    rw [hslot, update_apply]
    split_ifs with hj hk hk
    · simp [hj, hk]
    · -- The handle is new, so that no other slot has it.
      subst hj
      refine ⟨fun heq => absurd (Option.some.inj heq).symm hk, fun hex => ?_⟩
      exact absurd ((h.endpoint j).mpr ⟨k, (h.slots j k).mpr hex⟩) hfresh
    · subst hk
      simp [h.slots, hvacant, Ne.symm hj]
    · exact h.slots j k
  · intro j
    change Holds endpoint j ↔ ∃ k, update e.chToSlot ch _ j = some k
    rw [hholds, update_apply]
    split_ifs with heq
    · simp [heq]
    · simp [heq, h.endpoint]
  · exact fun j slot hne hs => h.open_ j slot (hother j slot hne hs)
  · exact fun j slot hne hs => h.sound j slot (hother j slot hne hs)
  · intro slot hs
    rw [hslot] at hs
    simp only [if_true, Option.some.injEq] at hs
    subst hs
    exact hending

/-- No step takes a connection into the closing or the draining period: connections
end by the idle timer, by a stateless reset or at the integrity limit. -/
def NoClosing (s : State) : Label → Prop
  | .receive (.forConnection ch d) _ => ∀ k slot, s.engine.chToSlot ch = some k →
      s.engine.slot k = some slot → (slot.inner.handleDatagram d).state.isClosed = true →
      (slot.inner.handleDatagram d).state = .drained
  | .receive (.newConnection incoming) _ => ∀ ch conn endpoint,
      s.engine.endpoint.accept s.engine.serverConfig incoming = (.ok (ch, conn), endpoint) →
      conn.state.isClosed = true → conn.state = .drained
  | .command _ => ∀ conn, s.engine.cmdQueue.items.head? = some (.closeConn conn) →
      s.engine.slot conn = none
  | .transmit input => KeysLast input.steps
  | _ => True

theorem AtRest.dispatch {e : Engine} (h : AtRest e) (replies : Replies) {event : DatagramEvent}
    (hconn : ∀ ch d k slot, event = .forConnection ch d → e.chToSlot ch = some k →
      e.slot k = some slot → (slot.inner.handleDatagram d).state.isClosed = true →
      (slot.inner.handleDatagram d).state = .drained)
    (hnew : ∀ incoming ch conn endpoint, event = .newConnection incoming →
      e.endpoint.accept e.serverConfig incoming = (.ok (ch, conn), endpoint) →
      conn.state.isClosed = true → conn.state = .drained) :
    AtRest (e.dispatch replies event) := by
  have htransmit : ∀ {e' : Engine} (transmit : Transmit), AtRest e' →
      AtRest (e'.enqueueProtoTransmit transmit) := by
    intro e' transmit h'
    unfold enqueueProtoTransmit
    split_ifs
    · exact h'
    · exact h'.of_eq rfl rfl fun _ => Iff.rfl
  cases event with
  | forConnection ch d =>
    simp only [Engine.dispatch]
    split
    · exact h
    · rename_i k hk
      exact h.act replies (fun c => c.handleDatagram d) fun slot hslot =>
        ⟨(h.sound k slot hslot).handleDatagram d, hconn ch d k slot rfl hk hslot⟩
  | newConnection incoming =>
    rcases haccept :
      e.endpoint.accept e.serverConfig incoming with ⟨response | ⟨ch, conn⟩, endpoint⟩
    · have hrefused : AtRest { e with endpoint } := h.of_eq rfl rfl (accept_error haccept)
      simp only [Engine.dispatch, haccept]
      rcases response with _ | transmit
      · exact hrefused
      · exact htransmit transmit hrefused
    · obtain ⟨hsound, hfresh, hholds⟩ := accept_ok haccept
      simp only [Engine.dispatch, haccept]
      exact (h.addConnection ⟨hsound, hnew incoming ch conn endpoint rfl haccept⟩ hfresh
        hholds).drained replies
  | response transmit => exact htransmit transmit h
  | nothing => exact h

theorem AtRest.transmitOnce {e : Engine} (h : AtRest e) {input : Connection.TransmitInput}
    (hinput : KeysLast input.steps) (firstPoll : Bool) (k : Nat) :
    AtRest (e.transmitOnce input firstPoll k).2 := by
  unfold Engine.transmitOnce
  split
  · exact h
  · rename_i slot hslot
    have hsteady := steady_pollTransmit slot.inner hinput
    split
    · rename_i inner hpoll
      rw [hpoll] at hsteady
      split_ifs
      · exact h.setSlot hslot rfl hsteady
      · have hset : AtRest (e.setSlot k { slot with inner, hasPendingSend := true }) :=
          h.setSlot hslot rfl hsteady
        exact hset.of_eq rfl rfl fun _ => Iff.rfl
    · rename_i payload inner hpoll
      rw [hpoll] at hsteady
      have hset : AtRest (e.setSlot k { slot with inner, nextTimeout := inner.pollTimeout }) :=
        h.setSlot hslot rfl hsteady
      exact hset.of_eq rfl rfl fun _ => Iff.rfl

theorem AtRest.beginTransmit {e : Engine} (h : AtRest e) (k : Nat) :
    AtRest (e.beginTransmit k) := by
  unfold Engine.beginTransmit
  split
  · exact h
  · rename_i slot hslot
    exact h.setSlot hslot rfl .refl

theorem AtRest.step {s s' : State} {a : Label} (h : AtRest s.engine) (hcond : NoClosing s a)
    (hstep : s.step a = some s') : AtRest s'.engine := by
  have hof : ∀ {e e' : Engine}, SameConnections e e' → AtRest e → AtRest e' :=
    fun hsame he => he.of_eq hsame.connections hsame.chToSlot (by simp [hsame.endpoint])
  refine State.step_keeps hof ?_ ?_ h.beginTransmit ?_ ?_ h hstep
  · rintro event replies e rfl hsame
    refine (hof hsame h).dispatch replies ?_ ?_
    · rintro ch d k slot rfl hk hslot
      rw [Engine.slot, hsame.connections] at hslot
      exact hcond k slot (hsame.chToSlot ▸ hk) hslot
    · rintro incoming ch conn endpoint rfl haccept
      rw [hsame.endpoint, hsame.serverConfig] at haccept
      exact hcond ch conn endpoint haccept
  · rintro input cmd rest e rfl hpop hsame
    refine (hof hsame h).processCommand input ?_
    rintro conn rfl
    rw [slot, hsame.connections]
    exact hcond conn (by rw [(ArrayQueue.pop_eq_some hpop).2]; rfl)
  · rintro input firstPoll k rfl
    exact transmitOnce h (by exact hcond) firstPoll k
  · rintro input replies k -
    exact h.act replies (fun c => c.handleTimeout s.now input) fun slot hslot =>
      (h.ending hslot).handleTimeout (h.open_ k slot hslot) s.now input

theorem agreement_of_noClosing {s : State} (hs : system.ReachableVia NoClosing s) :
    Agreement s.engine ∧ NoneClosed s.engine := by
  have hrest : AtRest s.engine := by
    induction hs with
    | initial h =>
      obtain ⟨config, networkTiles, rfl⟩ := h
      have hempty : ∀ k, (State.initial config networkTiles).engine.slot k = none := fun _ => rfl
      refine ⟨⟨fun ch k => ?_, fun ch => ?_⟩, fun k slot hslot => ?_, fun k slot hslot => ?_⟩
      · rw [hempty]
        simp [State.initial, new]
      · simp [State.initial, new, Endpoint.new, Holds, Slab.get, Slab.empty]
      · cases hslot
      · cases hslot
    | step _ hcond hstep ih => exact ih.step hcond hstep
  exact ⟨hrest.toAgreement, hrest.open_⟩

/-! Ways in which a connection ends. -/

def endOfQueues : List Label :=
  [.receive .nothing replies, .receive .nothing replies]

def idleTimeout : List Label :=
  [.arrive 0 [0], .runOnce 10, .receive (.newConnection (.initial false
      { initialPacket [.crypto false none] with processed := ⟨[(.idle, some 7)], by simp⟩ }
      (datagram []) [] ⟨[], 0⟩)) replies,
    .arrive 0 [0], .receive newClient replies] ++ endOfQueues ++
  [.command ⟨0, 0, replies⟩, transmit [], transmit [], transmit [], transmit [], transmit [],
    noTimeout, noTimeout, transmit [], transmit []]

def noClosingNow (s : State) : Label → Bool
  | .receive (.newConnection incoming) _ =>
    match s.engine.endpoint.accept s.engine.serverConfig incoming with
    | (.ok (_, conn), _) => !conn.state.isClosed
    | _ => true
  | .receive (.forConnection _ _) _ => false
  | .command _ => s.engine.cmdQueue.items.isEmpty
  | .transmit input => input.steps.isEmpty
  | _ => true

theorem noClosing_of_noClosingNow (s : State) (a : Label) (h : noClosingNow s a = true) :
    NoClosing s a := by
  unfold NoClosing
  split
  · cases h
  · intro ch conn endpoint haccept hclosed
    simp [noClosingNow, haccept, hclosed] at h
  · intro conn hhead
    simp [noClosingNow] at h
    simp [h] at hhead
  · simp [noClosingNow] at h
    simp [KeysLast, h]
  · trivial

theorem idleTimeout_agreement : ∃ s, system.ReachableVia NoClosing s ∧ s.phase = .idle ∧
    s.engine.connections.keys = [1] ∧ s.engine.endpoint.connections.keys = [1] ∧
    Agreement s.engine ∧ NoneClosed s.engine := by
  refine System.ReachableVia.exists_of_runChecked noClosing_of_noClosingNow
    (.initial ⟨config, 1, rfl⟩) idleTimeout ?_
  exact ⟨_, rfl, fun hreach => ⟨rfl, rfl, rfl, agreement_of_noClosing hreach⟩⟩

def peerClose : List Label :=
  [.arrive 0 [0], .runOnce 0, .receive newClient replies, .arrive 0 [0],
    .receive (.forConnection 0 (datagram [.decrypted (initialPacket [.close false])])) replies] ++
  endOfQueues ++
  [.command ⟨0, 0, replies⟩, transmit [], transmit [], noTimeout, transmit []]

/-- A client connects, and the application closes the connection; the close packet
is sent, and the close timer, at 3, fires in the next `run_once`. -/
def localClose : List Label :=
  [.arrive 0 [0], .runOnce 0, .receive newClient replies, .accept 0, .sendClose ⟨0, 0⟩] ++
  endOfQueues ++
  [.command ⟨0, 1, replies⟩, .command ⟨0, 1, replies⟩, transmit [],
    transmit [.packet none true false .none], transmit [], transmit [], noTimeout, transmit [],
    transmit [], transmit [], .runOnce 3] ++
  endOfQueues ++
  [.command ⟨3, 1, replies⟩, transmit [], noTimeout, noTimeout, transmit [], transmit [],
    transmit []]

/-- The endpoint keeps the handle of a connection that its peer closed when the
engine has forgotten it, and the engine keeps the slot of one that was closed here
when the endpoint has forgotten it and no timer is left. -/
theorem closed_not_agreement :
    (∃ s, system.Reachable s ∧ s.phase = .idle ∧ s.engine.connections.keys = [] ∧
      s.engine.endpoint.connections.keys = [0] ∧ ¬ Agreement s.engine) ∧
    ∃ s, system.Reachable s ∧ s.phase = .idle ∧ s.engine.connections.keys = [0] ∧
      s.engine.nextDeadline = none ∧ s.engine.endpoint.connections.keys = [] ∧
      ¬ Agreement s.engine := by
  have hinitial : system.Reachable (.initial config 1) := .initial ⟨config, 1, rfl⟩
  constructor
  · refine hinitial.exists_of_run peerClose ⟨_, rfl, rfl, rfl, rfl, fun h => ?_⟩
    obtain ⟨k, hk⟩ := (h.endpoint 0).mp rfl
    have hmap : none = some k := hk
    cases hmap
  · refine hinitial.exists_of_run localClose ⟨_, rfl, rfl, rfl, rfl, rfl, fun h => ?_⟩
    have hholds : false = true := (h.endpoint 0).mpr ⟨0, rfl⟩
    cases hholds

end Quac.SlotAgreement
