import Quac.EngineSettles
import Quac.StreamOpens
import Quac.TerminalSignal

/-!
`OpenStream` commands against the streams that the engine opens: `retry_pending_opens`
opens one stream for each `Available` event, however many commands wait for one.
-/

namespace Quac.OpenMatching

open Bridge Function
open ConnectionSteps (framesOf packetsOf paramsOf)
open EngineSettles EngineSteps HandleIsolation Identifiers Lib.BoundedQueue
open Lib.Transition Lifecycle
open ProtoConnection hiding State
open ProtoEndpoint RecvSteps SendSteps StreamAccess StreamOpens Streams
open Streams.StreamsState
open TerminalSignal Tile TileEngine TileWork TimerSync WriteIntegrity Option

variable {s s' : StreamsState} {dir : Dir} {id : StreamId} {c c' : Connection}
  {event : Option Event} {r : Dir → Nat} {k : Nat} {packets : List PacketInput}
  {input : Engine.CommandInput}

/-- The `OpenStream` commands processed so far for the connection of each slot. -/
abbrev Requests := Nat → Dir → Nat

def observeRequests (s : State) (a : Label) (r : Requests) : Requests :=
  match a with
  | .command _ =>
    match s.engine.cmdQueue.items with
    | .openStream k dir :: _ =>
      if (s.engine.slot k).isSome then
        Function.update r k (Function.update (r k) dir (r k dir + 1))
      else r
    | _ => r
  | .receive (.newConnection _) _ =>
    match work s a with
    | some w => Function.update r w.slotIdx fun _ => 0
    | none => r
  | _ => r

def history : System (State × Requests) Label :=
  system.observed (fun _ _ => 0) observeRequests

/-- `next` counts the streams opened here; `open_stream_cell` has made the cell of each,
with a `LocalStream` event, and of no other. -/
structure Matched (requests : Dir → Nat) (slot : ConnectionSlot) : Prop where
  cells : ∀ dir i, (slot.streams ⟨slot.inner.streams.side, dir, i⟩).isSome ↔
    i < slot.inner.streams.next dir
  requested : ∀ dir, slot.inner.streams.next dir ≤ requests dir
  served : slot.inner.state.isClosed = false → ∀ dir,
    slot.inner.streams.next dir < slot.inner.streams.max dir →
    slot.inner.streams.next dir = requests dir

def maxStreams (limits : PeerLimits) : Dir → Nat
  | .bi => limits.initialMaxStreamsBidi
  | .uni => limits.initialMaxStreamsUni

/-- What a datagram may say about a direction of which `next` streams are open, `max`
are allowed and `requests` were asked for: MAX_STREAMS frames raise the limit to one
value only, when one request waits or for one more stream; or there are none and the
transport parameters come before the requests. -/
def Fitting (next max requests : Nat) (dir : Dir) (packets : List PacketInput) : Prop :=
  (paramsOf packets = [] ∧ ∃ count,
    (∀ n, .maxStreams dir n ∈ framesOf packets → n ≤ max ∨ n = count) ∧
    (max < count → next < requests ∧ (requests = next + 1 ∨ count = next + 1))) ∨
  ((∀ n, .maxStreams dir n ∉ framesOf packets) ∧
    ∀ limits ∈ paramsOf packets, requests = next ∨ maxStreams limits dir ≤ next)

def Timely (s : State × Requests) : Label → Prop
  | .receive (.forConnection ch d) _ =>
    ∀ k slot, s.1.engine.chToSlot ch = some k → s.1.engine.slot k = some slot → ∀ dir,
      Fitting (slot.inner.streams.next dir) (slot.inner.streams.max dir) (s.2 k dir) dir d.packets
  | .receive (.newConnection incoming) _ =>
    ∀ dir n, .maxStreams dir n ∉ framesOf (packetsOf incoming)
  | _ => True

/-- `next` streams are open, `max` are allowed, and the events that wait open as many as
are missing, or as many as are allowed. -/
def Granted (next requests max waiting : Nat) : Prop :=
  next + min waiting (max - next) ≤ requests ∧
    (next + min waiting (max - next) = requests ∨ max ≤ next + min waiting (max - next))

theorem granted_zero_iff {next requests max : Nat} :
    Granted next requests max 0 ↔ next ≤ requests ∧ (requests = next ∨ max ≤ next) := by
  unfold Granted
  omega

/-- `Matched`, as soon as the `Available` events are polled. -/
structure Pending (requests : Dir → Nat) (slot : ConnectionSlot) : Prop where
  cells : ∀ dir i, (slot.streams ⟨slot.inner.streams.side, dir, i⟩).isSome ↔
    i < slot.inner.streams.next dir
  requested : ∀ dir, slot.inner.streams.next dir ≤ requests dir
  granted : slot.inner.state.isClosed = false → ∀ dir,
    Granted (slot.inner.streams.next dir) (requests dir) (slot.inner.streams.max dir)
      (availables slot.inner.streams dir)
  /-- The streams' events have their own queue. -/
  unmixed : ∀ event, .stream event ∉ slot.inner.events

section Slots

variable {r : Dir → Nat} {slot slot' : ConnectionSlot}

theorem Pending.of_same (h : Pending r slot) (hsame : SamePolls slot.inner slot'.inner)
    (hcells : slot'.streams = slot.streams)
    (hopen : slot'.inner.state.isClosed = false → slot.inner.state.isClosed = false) :
    Pending r slot' := by
  refine ⟨?_, ?_, ?_, ?_⟩
  · rw [hcells, hsame.streams.side, hsame.streams.next]
    exact h.cells
  · rw [hsame.streams.next]
    exact h.requested
  · intro hopen' dir
    rw [hsame.streams.available, hsame.streams.next, hsame.streams.max]
    exact h.granted (hopen hopen') dir
  · exact fun event hmem => h.unmixed event (hsame.events event hmem)

theorem Pending.matched (h : Pending r slot)
    (hnone : ∀ dir, availables slot.inner.streams dir = 0) :
    Matched r slot := by
  refine ⟨h.cells, h.requested, ?_⟩
  intro hopen dir hless
  have hgranted := h.granted hopen dir
  rw [hnone dir, granted_zero_iff] at hgranted
  omega

theorem Pending.peerCell (h : Pending r slot) (hid : id.initiator ≠ slot.inner.streams.side)
    (cell : CellId) :
    Pending r { slot with streams := update slot.streams id (some cell) } := by
  refine { h with cells := ?_ }
  intro dir i
  have hne : (⟨slot.inner.streams.side, dir, i⟩ : StreamId) ≠ id := by
    rintro rfl
    exact hid rfl
  simp only [update_of_ne hne]
  exact h.cells dir i

end Slots

/-! What a poll takes away. -/

structure Polled (event : Option StreamEvent) (s s' : StreamsState) : Prop where
  side : s'.side = s.side
  next : s'.next = s.next
  max : s'.max = s.max
  available : ∀ dir, availables s dir =
    availables s' dir + if event = some (.available dir) then 1 else 0

theorem polled_streams {event : Option StreamEvent}
    (h : s.poll = (event, s')) : Polled event s s' := by
  cases StreamsState.poll_spec h with
  | opened | writable => exact ⟨rfl, rfl, rfl, fun dir => by simp [availables]⟩
  | event hevent =>
    refine ⟨rfl, rfl, rfl, fun dir => ?_⟩
    rw [← hevent]
    rcases hs : s.events with _ | ⟨_, _⟩ <;> simp [availables, hs, List.count_cons]

theorem poll_events (h : c.poll = (event, c')) : c'.events ⊆ c.events ∧ c'.state = c.state := by
  unfold Connection.poll at h
  repeat' split at h
  all_goals cases h
  · rename_i heq
    rw [heq]
    exact ⟨List.subset_cons_self _ _, rfl⟩
  all_goals exact ⟨fun _ hmem => hmem, rfl⟩

theorem poll_streams (h : c.poll = (event, c')) :
    (∃ first, event = some first ∧ first ∈ c.events ∧ c'.streams = c.streams) ∨
      ∃ e, Polled e c.streams c'.streams ∧ ∀ ev, event = some (.stream ev) ↔ e = some ev := by
  unfold Connection.poll at h
  split at h
  · rename_i first events hevents
    cases h
    exact .inl ⟨first, rfl, by rw [hevents]; exact List.mem_cons_self, rfl⟩
  · right
    split at h
    · rename_i e streams hpoll
      cases h
      exact ⟨some e, polled_streams hpoll, by simp⟩
    · rename_i streams hpoll
      have hpolled := polled_streams hpoll
      split at h <;> cases h <;> exact ⟨none, hpolled, by simp⟩

theorem poll_samePolls (h : c.poll = (event, c'))
    (hevent : ∀ dir, event ≠ some (.stream (.available dir))) : SamePolls c c' := by
  refine ⟨?_, fun e hmem => (poll_events h).1 hmem⟩
  obtain ⟨-, -, -, heq⟩ | ⟨e, hpolled, hreported⟩ := poll_streams h
  · rw [heq]
    exact .refl
  · refine { hpolled with available := ?_ }
    intro dir
    have hcount := hpolled.available dir
    rw [if_neg fun he => hevent dir ((hreported _).mpr he)] at hcount
    exact hcount.symm

/-! What `open` does. -/

theorem openStream_eq_none {closed : Bool} (h : openStream s closed dir = (none, s')) :
    SameOpens s s' ∧ (closed = true ∨ s.max dir ≤ s.next dir) := by
  unfold openStream at h
  split_ifs at h with hclosed hmax
  · cases h
    exact ⟨.refl, .inl hclosed⟩
  · cases h
    exact ⟨.of_events rfl rfl rfl rfl, .inr hmax⟩
  · cases h

structure Opened (dir : Dir) (id : StreamId) (s s' : StreamsState) : Prop where
  id_eq : id = ⟨s.side, dir, s.next dir⟩
  allowed : s.next dir < s.max dir
  side : s'.side = s.side
  next : s'.next = Function.update s.next dir (s.next dir + 1)
  max : s'.max = s.max

theorem openStream_eq_some {closed : Bool} (h : openStream s closed dir = (some id, s')) :
    closed = false ∧ Opened dir id s s' ∧ ∀ d, availables s' d = availables s d := by
  unfold openStream at h
  split_ifs at h with hclosed hmax
  · cases h
  · cases h
  cases h
  have hinsert : SameOpens { s with next := update s.next dir (s.next dir + 1) }
      (StreamsState.insert { s with next := update s.next dir (s.next dir + 1) } false
        ⟨s.side, dir, s.next dir⟩) := .insert false _
  exact ⟨by simpa using hclosed, { hinsert with id_eq := rfl, allowed := lt_of_not_ge hmax },
    hinsert.available⟩

section Opens

variable {r : Dir → Nat} {slot : ConnectionSlot} {inner : Connection} {dir : Dir}
  {streams : StreamsState} {id : StreamId}

theorem cells_opened (h : ∀ d i, (slot.streams ⟨slot.inner.streams.side, d, i⟩).isSome ↔
      i < slot.inner.streams.next d) {s : StreamsState}
    (hopened : Opened dir id slot.inner.streams s) (cell : CellId) (d : Dir) (i : Nat) :
    (update slot.streams id (some cell) ⟨s.side, d, i⟩).isSome ↔ i < s.next d := by
  rw [hopened.side, hopened.next, hopened.id_eq]
  by_cases hsame : d = dir ∧ i = slot.inner.streams.next dir
  · obtain ⟨rfl, rfl⟩ := hsame
    simp
  · have hne : (⟨slot.inner.streams.side, d, i⟩ : StreamId) ≠
        ⟨slot.inner.streams.side, dir, slot.inner.streams.next dir⟩ := by
      simpa using hsame
    rw [update_of_ne hne, h d i]
    rcases eq_or_ne d dir with rfl | hdir
    · have hi : i ≠ slot.inner.streams.next d := fun hi => hsame ⟨rfl, hi⟩
      rw [update_self]
      omega
    · rw [update_of_ne hdir]

theorem polled_available (h : Pending r slot)
    (hpoll : slot.inner.poll = (some (.stream (.available dir)), inner)) :
    Polled (some (.available dir)) slot.inner.streams inner.streams := by
  obtain ⟨_, hfirst, hmem, -⟩ | ⟨e, hpolled, hreported⟩ := poll_streams hpoll
  · cases hfirst
    exact absurd hmem (h.unmixed _)
  · rwa [(hreported _).mp rfl] at hpolled

theorem Pending.availableNone (h : Pending r slot)
    (hpoll : slot.inner.poll = (some (.stream (.available dir)), inner))
    (hopen : openStream inner.streams inner.state.isClosed dir = (none, streams)) :
    Pending r { slot with inner := { inner with streams } } := by
  have hpolled := polled_available h hpoll
  obtain ⟨hevents, hstate⟩ := poll_events hpoll
  obtain ⟨hsame, hcase⟩ := openStream_eq_none hopen
  have hnext : streams.next = slot.inner.streams.next := hsame.next.trans hpolled.next
  have hmax : streams.max = slot.inner.streams.max := hsame.max.trans hpolled.max
  have hside : streams.side = slot.inner.streams.side := hsame.side.trans hpolled.side
  refine ⟨?_, ?_, ?_, fun event hmem => h.unmixed event (hevents hmem)⟩
  · rw [hside, hnext]
    exact h.cells
  · rw [hnext]
    exact h.requested
  · intro hopen' d
    have hfull := hcase.resolve_left (by simp [hopen'])
    rw [hpolled.max, hpolled.next] at hfull
    have hgranted := h.granted (hstate ▸ hopen') d
    have havailable := hpolled.available d
    change Granted (streams.next d) (r d) (streams.max d) (availables streams d)
    rw [hnext, hmax, hsame.available]
    rcases eq_or_ne dir d with rfl | hne
    · unfold Granted at hgranted ⊢
      omega
    · rw [if_neg (by simpa using hne), add_zero] at havailable
      exact havailable ▸ hgranted

theorem Pending.availableSome (h : Pending r slot)
    (hpoll : slot.inner.poll = (some (.stream (.available dir)), inner))
    (hopen : openStream inner.streams inner.state.isClosed dir = (some id, streams))
    (cell : CellId) :
    Pending r { slot with
      inner := { inner with streams }
      streams := update slot.streams id (some cell) } := by
  have hpolled := polled_available h hpoll
  obtain ⟨hevents, hstate⟩ := poll_events hpoll
  obtain ⟨hclosed, hopened, havailable⟩ := openStream_eq_some hopen
  rw [hstate] at hclosed
  have hfrom : Opened dir id slot.inner.streams streams :=
    ⟨by rw [hopened.id_eq, hpolled.side, hpolled.next],
      by rw [← hpolled.next, ← hpolled.max]; exact hopened.allowed,
      hopened.side.trans hpolled.side, by rw [hopened.next, hpolled.next],
      hopened.max.trans hpolled.max⟩
  have hgranted : ∀ d, Granted (streams.next d) (r d) (streams.max d) (availables streams d) := by
    intro d
    have hcount := hpolled.available d
    have hgranted := h.granted hclosed d
    rw [havailable, hfrom.max, hfrom.next]
    rcases eq_or_ne d dir with rfl | hne
    · rw [if_pos rfl] at hcount
      rw [update_self]
      have hallowed := hfrom.allowed
      unfold Granted at hgranted ⊢
      omega
    · rw [if_neg (by simpa using hne.symm), add_zero] at hcount
      rw [update_of_ne hne, ← hcount]
      exact hgranted
  refine ⟨cells_opened h.cells hfrom cell, fun d => ?_, fun _ => hgranted,
    fun event hmem => h.unmixed event (hevents hmem)⟩
  exact (Nat.le_add_right _ _).trans (hgranted d).1

end Opens

def Waits (r : Dir → Nat) (k : Nat) (e : Engine) : Prop :=
  ∀ slot, e.slot k = some slot → Pending r slot

variable {slot : ConnectionSlot}

namespace Waits

variable {r : Dir → Nat} {k : Nat} {e : Engine}

theorem setSlot {old : ConnectionSlot} (hold : e.slot k = some old) (h : Pending r slot) :
    Waits r k (e.setSlot k slot) := by
  intro s hs
  rw [slot_setSlot_self hold] at hs
  cases hs
  exact h

theorem of_connections {e' : Engine} (h : Waits r k e) (heq : e'.connections = e.connections) :
    Waits r k e' := by
  intro slot hslot
  exact h slot (by rw [Engine.slot, ← heq]; exact hslot)

theorem setInner (h : Waits r k e) (hslot : e.slot k = some slot)
    {inner : Connection} (hsame : SamePolls slot.inner inner)
    (hopen : inner.state.isClosed = false → slot.inner.state.isClosed = false) :
    Waits r k (e.setInner k slot inner) :=
  setSlot hslot ((h slot hslot).of_same hsame rfl hopen)

def samePolls : Permit :=
  ⟨fun c c' => SamePolls c c' ∧ (c'.state.isClosed = false → c.state.isClosed = false), False, True⟩

theorem of_moves {e' : Engine} (h : Waits r k e) (hmoves : Moves samePolls k e e') :
    Waits r k e' := by
  refine slot_of_moves h hmoves ?_ fun h => h.elim
  rintro slot inner _ _ (rfl | ⟨hsame, hopen⟩) hslot
  · exact hslot.of_same .refl rfl id
  · exact hslot.of_same hsame rfl hopen

theorem samePolls_reads (c c' : Connection) (h : Reads c c') : samePolls.inner c c' := by
  cases h with
  | error hnew =>
    exact ⟨.of_streams (.of_absorbs ((absorbs_chunks_new _ _ _).1 _ _ hnew)) rfl, id⟩
  | chunks hnew room =>
    exact ⟨.of_streams (.of_absorbs (absorbs_read hnew room _)) rfl, id⟩

theorem openStreamCell (hslot : e.slot k = some slot)
    (h : ∀ cell, Pending r { slot with streams := update slot.streams id (some cell) })
    (isLocal : Bool) : Waits r k (e.openStreamCell k id isLocal) := by
  unfold Engine.openStreamCell
  rw [hslot]
  exact (setSlot hslot (h e.nextCell)).of_connections rfl

theorem drainReadableStream (h : Waits r k e) (id : StreamId) :
    Waits r k (e.drainReadableStream k id) :=
  h.of_moves (moves_drainReadableStream samePolls_reads id)

theorem sameOpens_accept {accepted : Option StreamId} (h : acceptStream s dir = (accepted, s')) :
    SameOpens s s' := by
  have hstreams : SameOpens s (acceptStream s dir).2 := .acceptStream dir
  rwa [h] at hstreams

theorem accepted (h : Waits r k e) (hslot : e.slot k = some slot)
    {streams : StreamsState} (haccept : acceptStream slot.inner.streams dir = (some id, streams)) :
    Waits r k ((e.setInner k slot { slot.inner with streams }).openStreamCell k id false) := by
  have hsame := sameOpens_accept haccept
  have hid : id.initiator ≠ streams.side := by
    unfold acceptStream at haccept
    split at haccept
    · cases haccept
    · cases haccept
      cases slot.inner.streams.side <;> simp [Side.peer]
  have hinner : Pending r { slot with inner := { slot.inner with streams } } :=
    (h slot hslot).of_same (.of_streams hsame rfl) rfl fun hopen => hopen
  exact openStreamCell (slot_setSlot_self hslot _) (fun cell => hinner.peerCell hid cell) false

theorem headRule (r : Dir → Nat) (replies : Replies) (k ch : Nat) :
    HeadRule replies k ch (Waits r k) where
  poll e slot event inner he hslot hpoll _ _ havailable :=
    he.setInner hslot (poll_samePolls hpoll (by simpa using havailable))
      fun hopen => (poll_events hpoll).2 ▸ hopen
  pollNone e slot inner he hslot hpoll := by
    refine setSlot hslot ((he slot hslot).of_same (poll_samePolls hpoll (by simp)) rfl ?_)
    exact fun hopen => (poll_events hpoll).2 ▸ hopen
  readable e slot id inner he hslot hpoll := by
    refine drainReadableStream (he.setInner hslot (poll_samePolls hpoll (by simp)) ?_) id
    exact fun hopen => (poll_events hpoll).2 ▸ hopen
  acceptBi e slot id streams he hslot haccept := (he.accepted hslot haccept).drainReadableStream id
  acceptUni e slot id streams he hslot haccept := he.accepted hslot haccept
  acceptNone e slot dir streams he hslot haccept :=
    he.setInner hslot (.of_streams (sameOpens_accept haccept) rfl) id
  wakeSender e id he := he.of_moves (moves_wakeSender id)
  availableNone e slot dir inner streams he hslot hpoll hopen :=
    setSlot (slot_setSlot_self hslot _) ((he slot hslot).availableNone hpoll hopen)
  availableSome e slot dir inner id streams he hslot hpoll hopen :=
    openStreamCell (slot_setSlot_self (slot_setSlot_self hslot _) _)
      (fun cell => (he slot hslot).availableSome hpoll hopen cell) true
  markPendingSend e he := he.of_moves moves_markPendingSend
  endpointEvent e slot event inner n he hslot hpoll := by
    have hinner : SamePolls slot.inner inner ∧ inner.state = slot.inner.state := by
      unfold Connection.pollEndpointEvents at hpoll
      split at hpoll
      · cases hpoll
        exact ⟨.of_streams .refl rfl, rfl⟩
      · cases hpoll
    have hset : Waits r k { e with endpoint := (e.endpoint.handleEvent ch event).2 } :=
      he.of_connections rfl
    refine hset.setInner hslot ?_ ?_
    · split_ifs
      · exact hinner.1.trans (.of_streams .refl rfl)
      · exact hinner.1
    · split_ifs <;> exact fun hopen => hinner.2 ▸ hopen
  lost e slot reason inner _ _ _ := by
    intro s hs
    rw [slot_removeLost] at hs
    cases hs

end Waits

/-! Steps. -/

structure Settled (r : Dir → Nat) (slot : ConnectionSlot) : Prop extends Pending r slot where
  quiet : ∀ dir, availables slot.inner.streams dir = 0

def Inv (s : State × Requests) : Prop :=
  ∀ k slot, s.1.engine.slot k = some slot → Settled (s.2 k) slot

theorem drained {replies : Replies} {e : Engine} (h : Waits r k e)
    (hslot : (Engine.drainConnectionEvents replies e k).slot k = some slot) :
    Settled r slot := by
  have hwaits : Waits r k (Engine.drainConnectionEvents replies e k) := by
    rcases hbefore : e.slot k with _ | before
    · simp only [Engine.drainConnectionEvents, hbefore]
      exact h
    · exact (Waits.headRule r replies k before.handle).drainConnectionEvents hbefore h
  refine ⟨hwaits slot hslot, ?_⟩
  intro dir
  have hevents := (drainConnectionEvents_settled replies e k slot hslot).streamEvents
  rw [availables, hevents, List.count_nil]

theorem settled_of_same {slot' : ConnectionSlot} (h : Settled r slot)
    (hsame : SamePolls slot.inner slot'.inner) (hcells : slot'.streams = slot.streams)
    (hopen : slot'.inner.state.isClosed = false → slot.inner.state.isClosed = false) :
    Settled r slot' :=
  ⟨h.toPending.of_same hsame hcells hopen,
    fun dir => (hsame.streams.available dir).trans (h.quiet dir)⟩

/-- No stream is opened, and `P` holds of the limit and the `Available` events of a
direction. -/
structure Limits (s : StreamsState) (dir : Dir) (P : Nat → Nat → Prop) (c : Connection) : Prop where
  side : c.streams.side = s.side
  next : c.streams.next = s.next
  unmixed : ∀ event, .stream event ∉ c.events
  limit : P (c.streams.max dir) (availables c.streams dir)

theorem limitRule {P : Nat → Nat → Prop}
    (hraise : ∀ n, .maxStreams dir n ∈ framesOf packets → ∀ m a, P m a → m < n → P n (a + 1))
    (hparams : ∀ limits ∈ paramsOf packets, ∀ m a, P m a → P (maxStreams limits dir) a) :
    LimitRule packets (Limits s dir P) where
  same c c' hsame h := by
    refine ⟨hsame.streams.side.trans h.side, hsame.streams.next.trans h.next,
      fun event hmem => h.unmixed event (hsame.events event hmem), ?_⟩
    rw [hsame.streams.max, hsame.streams.available]
    exact h.limit
  maxStreams c streams d n hframe hok h := by
    unfold StreamsState.receivedMaxStreams at hok
    split_ifs at hok with _ hmore
    · cases hok
      refine { h with limit := ?_ }
      rcases eq_or_ne d dir with rfl | hne
      · have hraised := hraise n hframe _ _ h.limit hmore
        simpa [availables] using hraised
      · have hsame := h.limit
        simpa [availables, hne, hne.symm] using hsame
    · cases hok
      exact { h with }
  setParams c limits hlimits h := by
    refine { h with limit := ?_ }
    exact hparams limits hlimits _ _ h.limit

theorem Settled.served_or_full (h : Settled r slot)
    (hopen : slot.inner.state.isClosed = false) (dir : Dir) :
    r dir = slot.inner.streams.next dir ∨
      slot.inner.streams.max dir ≤ slot.inner.streams.next dir := by
  have hgranted := h.granted hopen dir
  rw [h.quiet dir, granted_zero_iff] at hgranted
  exact hgranted.2

theorem granted_handleDatagram (h : Settled r slot)
    (hopen : slot.inner.state.isClosed = false) {d : Connection.Datagram}
    (hfitting : Fitting (slot.inner.streams.next dir) (slot.inner.streams.max dir) (r dir) dir
      d.packets) :
    Granted (slot.inner.streams.next dir) (r dir) ((slot.inner.handleDatagram d).streams.max dir)
      (availables (slot.inner.handleDatagram d).streams dir) := by
  have hle := h.requested dir
  have hserved := h.served_or_full hopen dir
  rcases hfitting with ⟨hnoParams, count, hframes, _⟩ | ⟨hnoFrames, hlimits⟩
  · -- The limit is what it was, or `count` and one event waits.
    have hrule : LimitRule d.packets (Limits slot.inner.streams dir fun m a =>
        m = slot.inner.streams.max dir ∧ a = 0 ∨
          slot.inner.streams.max dir < count ∧ m = count ∧ a = 1) := by
      refine limitRule ?_ ?_
      · intro n hn m a hma hmore
        have hn := hframes n hn
        omega
      · intro limits hmem
        rw [hnoParams] at hmem
        cases hmem
    have hlimits := (hrule.inputRule.handleDatagram (List.Subset.refl _)
      ⟨rfl, rfl, h.unmixed, .inl ⟨rfl, h.quiet dir⟩⟩).limit
    rcases hlimits with ⟨hmax, hnone⟩ | ⟨_, hmax, _⟩
    · rw [hmax, hnone]
      exact granted_zero_iff.mpr ⟨hle, hserved⟩
    · unfold Granted
      omega
  · have hrule : LimitRule d.packets (Limits slot.inner.streams dir fun m a =>
        a = 0 ∧ (r dir = slot.inner.streams.next dir ∨ m ≤ slot.inner.streams.next dir)) := by
      refine limitRule ?_ ?_
      · exact fun n hn => absurd hn (hnoFrames n)
      · exact fun limits hmem m a hma => ⟨hma.1, hlimits limits hmem⟩
    obtain ⟨hnone, hcase⟩ := (hrule.inputRule.handleDatagram (List.Subset.refl _)
      ⟨rfl, rfl, h.unmixed, h.quiet dir, hserved⟩).limit
    rw [hnone]
    exact granted_zero_iff.mpr ⟨hle, hcase⟩

theorem pending_handleDatagram {slot' : ConnectionSlot} (h : Settled r slot)
    {d : Connection.Datagram}
    (hfitting : ∀ dir, Fitting (slot.inner.streams.next dir) (slot.inner.streams.max dir) (r dir)
      dir d.packets)
    (hinner : slot'.inner = slot.inner.handleDatagram d) (hcells : slot'.streams = slot.streams) :
    Pending r slot' := by
  have hrule : LimitRule d.packets (Limits slot.inner.streams .bi fun _ _ => True) :=
    limitRule (fun _ _ _ _ _ _ => trivial) fun _ _ _ _ _ => trivial
  have hlimits := hrule.inputRule.handleDatagram (List.Subset.refl _) ⟨rfl, rfl, h.unmixed, trivial⟩
  refine ⟨?_, ?_, ?_, ?_⟩
  · rw [hinner, hcells, hlimits.side, hlimits.next]
    exact h.cells
  · rw [hinner, hlimits.next]
    exact h.requested
  · intro hopen dir
    rw [hinner] at hopen ⊢
    rw [hlimits.next]
    exact granted_handleDatagram h
      (open_of ((closed_endRule.input _).handleDatagram (List.Subset.refl _)) hopen) (hfitting dir)
  · rw [hinner]
    exact hlimits.unmixed

theorem pending_accept {e e' : Endpoint} {config : TransportConfig} {incoming : Incoming} {ch : Nat}
    (h : e.accept config incoming = (.ok (ch, slot.inner), e'))
    (hframes : ∀ dir n, .maxStreams dir n ∉ framesOf (packetsOf incoming))
    (hcells : slot.streams = fun _ => none) : Pending (fun _ => 0) slot := by
  obtain ⟨hnext, hnone⟩ := new_opens config
  have hlimits :
      ∀ dir, Limits (Connection.new config).streams dir (fun _ a => a = 0) slot.inner := by
    intro dir
    have hrule : LimitRule (packetsOf incoming)
        (Limits (Connection.new config).streams dir fun _ a => a = 0) := by
      refine limitRule ?_ ?_
      · exact fun n hn => absurd hn (hframes dir n)
      · exact fun _ _ _ _ ha => ha
    exact hrule.inputRule.accept h ⟨rfl, rfl, by simp [Connection.new], hnone dir⟩
  have hzero : ∀ dir, slot.inner.streams.next dir = 0 := by
    intro dir
    rw [(hlimits dir).next, hnext]
  refine ⟨?_, ?_, ?_, (hlimits .bi).unmixed⟩
  · intro dir i
    simp [hcells, hzero dir]
  · intro dir
    rw [hzero dir]
  · intro _ dir
    rw [(hlimits dir).limit, hzero dir]
    exact granted_zero_iff.mpr ⟨le_rfl, .inl rfl⟩

def request (r : Dir → Nat) (dir : Dir) : Dir → Nat :=
  Function.update r dir (r dir + 1)

theorem le_request (r : Dir → Nat) (dir d : Dir) : r d ≤ request r dir d := by
  rcases eq_or_ne d dir with rfl | hne
  · simp [request]
  · simp [request, hne]

section Requested

variable {r : Dir → Nat} {slot : ConnectionSlot} {dir : Dir} {streams : StreamsState}

theorem Settled.blocked (h : Settled r slot)
    (hopen : openStream slot.inner.streams slot.inner.state.isClosed dir = (none, streams)) :
    Settled (request r dir) { slot with inner := { slot.inner with streams } } := by
  obtain ⟨hsame, hcase⟩ := openStream_eq_none hopen
  have hkept : Settled r { slot with inner := { slot.inner with streams } } :=
    settled_of_same h (.of_streams hsame rfl) rfl id
  refine ⟨⟨hkept.cells, ?_, ?_, hkept.unmixed⟩, hkept.quiet⟩
  · exact fun d => (hkept.requested d).trans (le_request r dir d)
  · intro hclosed d
    rcases eq_or_ne d dir with rfl | hne
    · have hclosed' : slot.inner.state.isClosed = false := hclosed
      have hfull := hcase.resolve_left (by simp [hclosed'])
      rw [hkept.quiet d, granted_zero_iff]
      refine ⟨(hkept.requested d).trans (le_request r d d), .inr ?_⟩
      rw [hsame.max, hsame.next]
      exact hfull
    · have hother : request r dir d = r d := update_of_ne hne _ _
      rw [hother]
      exact hkept.granted hclosed d

theorem Settled.served (h : Settled r slot)
    (hopen : openStream slot.inner.streams slot.inner.state.isClosed dir = (some id, streams))
    (cell : CellId) :
    Pending (request r dir) { slot with
      inner := { slot.inner with streams }
      streams := update slot.streams id (some cell) } := by
  obtain ⟨hclosed, hopened, havailable⟩ := openStream_eq_some hopen
  have hmatched := (h.toPending.matched h.quiet).served hclosed
  have hnone : ∀ d, availables streams d = 0 := fun d => (havailable d).trans (h.quiet d)
  refine ⟨cells_opened h.cells hopened cell, ?_, ?_, h.unmixed⟩
  · intro d
    have hle := h.requested d
    rw [hopened.next, request]
    rcases eq_or_ne d dir with rfl | hne
    · rw [update_self, update_self]
      omega
    · rw [update_of_ne hne, update_of_ne hne]
      exact hle
  · intro _ d
    change Granted (streams.next d) (request r dir d) (streams.max d) (availables streams d)
    rw [hnone, hopened.next, hopened.max, request]
    rcases eq_or_ne d dir with rfl | hne
    · rw [update_self, update_self, hmatched d hopened.allowed]
      exact granted_zero_iff.mpr ⟨le_rfl, .inl rfl⟩
    · rw [update_of_ne hne, update_of_ne hne]
      exact granted_zero_iff.mpr ⟨h.requested d, h.served_or_full hclosed d⟩

end Requested

section Steps

variable {s s' : State} {r : Requests}

theorem Inv.of_drained (h : Inv (s, r)) {r' : Requests} {w : Work} {e : Engine} (replies : Replies)
    (hworked : Worked s.engine w e)
    (hpending : ∀ slot, slot.streams = w.streams → slot.inner = w.inner →
      Pending (r' w.slotIdx) slot)
    (hothers : ∀ k, k ≠ w.slotIdx → r' k = r k)
    (heq : s'.engine = Engine.drainConnectionEvents replies e w.slotIdx) : Inv (s', r') := by
  intro k slot hslot
  rw [heq] at hslot
  rcases eq_or_ne k w.slotIdx with rfl | hne
  · obtain ⟨before, hbefore, hstreams, hinner⟩ := hworked.occupied
    refine drained ?_ hslot
    intro slot' hslot'
    rw [hbefore] at hslot'
    cases hslot'
    exact hpending before hstreams hinner
  · rw [(Local.drainConnectionEvents replies e w.slotIdx).slots k hne,
      hworked.others k hne] at hslot
    have hkept := h k slot hslot
    change Settled (r' k) slot
    rw [hothers k hne]
    exact hkept

variable {cmdQueue : ArrayQueue TileAppCommand}

theorem Inv.withSlot (h : Inv (s, r))
    (hslot : s.engine.slot k = some slot)
    (act : Connection → Connection) (hsame : SamePolls slot.inner (act slot.inner))
    (hopen : (act slot.inner).state.isClosed = false → slot.inner.state.isClosed = false)
    (heq : s'.engine = Engine.withSlot { s.engine with cmdQueue } input k act) : Inv (s', r) := by
  have hslot' : Engine.slot { s.engine with cmdQueue } k = some slot := hslot
  have hworked := worked_act hslot' (act slot.inner)
  refine h.of_drained (w := ⟨k, slot.streams, act slot.inner⟩) input.replies
    { hworked with } ?_ (fun _ _ => rfl) ?_
  · intro slot' hstreams hinner
    refine (h k slot hslot).toPending.of_same ?_ hstreams ?_
    · rw [hinner]
      exact hsame
    · rw [hinner]
      exact hopen
  · rw [heq]
    simp only [Engine.withSlot, hslot']

theorem Inv.of_slot (h : Inv (s, r)) {q : Dir → Nat}
    (hself : ∀ slot, s'.engine.slot k = some slot → Settled q slot)
    (hothers : ∀ j, j ≠ k → s'.engine.slot j = s.engine.slot j) : Inv (s', update r k q) := by
  intro j slot hslot
  rcases eq_or_ne j k with rfl | hne
  · change Settled (update r j q j) slot
    rw [update_self]
    exact hself slot hslot
  · change Settled (update r k q j) slot
    rw [update_of_ne hne]
    exact h j slot ((hothers j hne).symm.trans hslot)

theorem Inv.request (h : Inv (s, r)) (hslot : s.engine.slot k = some slot)
    (heq : s'.engine = Engine.processCommand { s.engine with cmdQueue } input (.openStream k dir)) :
    Inv (s', update r k (OpenMatching.request (r k) dir)) := by
  have hslot' : Engine.slot { s.engine with cmdQueue } k = some slot := hslot
  have hsettled := h k slot hslot
  rcases hopen : openStream slot.inner.streams slot.inner.state.isClosed dir with ⟨_ | id, _⟩
  · simp only [Engine.processCommand, hslot', hopen] at heq
    refine h.of_slot (fun other hother => ?_) fun j hj => ?_
    · rw [heq, Engine.setInner, slot_setSlot_self hslot'] at hother
      cases hother
      exact hsettled.blocked hopen
    · rw [heq]
      exact slot_setSlot_of_ne _ hj
  · simp only [Engine.processCommand, hslot', hopen] at heq
    refine h.of_slot (fun other hother => ?_) fun j hj => ?_
    · rw [heq] at hother
      refine drained (Waits.of_moves ?_ moves_markPendingSend) hother
      exact Waits.openStreamCell (slot_setSlot_self hslot' _)
        (fun cell => hsettled.served hopen cell) true
    · have hmoves : Moves .any k { s.engine with cmdQueue } s'.engine := by
        rw [heq]
        exact (moves_opened hslot' trivial trivial id true).trans
          (moves_markPendingSend.trans (work_drain input.replies _ k))
      exact (Local.of_moves hmoves).slots j hj

theorem Inv.command (h : Inv (s, r)) {w : Work}
    (hw : work s (.command input) = some w) (hstep : s.step (.command input) = some s') :
    Inv (s', observeRequests s (.command input) r) := by
  obtain ⟨cmd, _, slot, hpop, hslot, -, heq⟩ := step_processes hw hstep
  obtain ⟨-, hitems⟩ := ArrayQueue.pop_eq_some hpop
  cases cmd with
  | openStream k =>
    have hsome : (s.engine.slot k).isSome := by
      rw [show s.engine.slot k = some slot from hslot]
      rfl
    simp only [observeRequests, hitems, hsome, if_true]
    exact h.request hslot heq
  | write _ id data fin =>
    simp only [observeRequests, hitems]
    refine h.withSlot hslot (fun c =>
      let s := (writeStream c.streams c.state.isClosed id data).2
      { c with streams := if fin then (finishStream s id).2 else s }) ?_ (fun hopen => hopen) heq
    refine .of_streams (.of_steps ?_) rfl
    split_ifs
    · exact (steps_writeStream trivial trivial _ _ data).trans (steps_finishStream trivial trivial)
    · exact steps_writeStream trivial trivial _ _ data
  | finish _ id =>
    simp only [observeRequests, hitems]
    exact h.withSlot hslot (fun c => { c with streams := (finishStream c.streams id).2 })
      (.of_streams (.of_steps (steps_finishStream trivial trivial)) rfl) (fun hopen => hopen) heq
  | resetStream _ id code =>
    simp only [observeRequests, hitems]
    exact h.withSlot hslot (fun c => { c with
        streams := (resetStream c.streams c.pending id (code % 2 ^ 32)).2.1
        pending := (resetStream c.streams c.pending id (code % 2 ^ 32)).2.2 })
      (.of_streams (.of_steps (steps_resetStream trivial slot.inner.pending _)) rfl)
      (fun hopen => hopen) heq
  | closeConn =>
    simp only [observeRequests, hitems]
    refine h.withSlot hslot (fun c => c.closeInner input.now input.pto)
      ((SamePolls.isLocal slot.inner).closing.closeInner input.now input.pto .refl) ?_ heq
    intro hopen
    unfold Connection.closeInner at hopen
    split_ifs at hopen
    · exact hopen
    · cases hopen

theorem observeRequests_of_noWork {a : Label} (hw : work s a = none) (hstep : s.step a = some s') :
    observeRequests s a r = r := by
  cases a with
  | receive event =>
    cases event with
    | newConnection => simp only [observeRequests, hw]
    | forConnection | response | nothing => rfl
  | command =>
    simp only [State.step] at hstep
    split at hstep
    · rename_i didWork hphase
      simp only [observeRequests]
      split
      · rename_i k dir rest hitems
        rcases hpop : s.engine.cmdQueue.pop with _ | ⟨_, q⟩
        · rw [ArrayQueue.pop_eq_none hpop] at hitems
          cases hitems
        · obtain ⟨-, hcons⟩ := ArrayQueue.pop_eq_some hpop
          rw [hitems, List.cons.injEq] at hcons
          obtain ⟨rfl, -⟩ := hcons
          have hslot : s.engine.slot k = none :=
            eq_none_iff_forall_ne_some.mpr
              (by simpa [work, hphase, hpop, TileAppCommand.conn] using hw)
          simp [hslot]
      · rfl
    · cases hstep
  | _ => rfl

theorem Inv.step {a : Label} (h : Inv (s, r)) (htimely : Timely (s, r) a)
    (hstep : s.step a = some s') : Inv (s', observeRequests s a r) := by
  rcases hw : work s a with _ | w
  · rw [observeRequests_of_noWork hw hstep]
    obtain hsame | ⟨k, hmoves⟩ := step_of_noWork hw hstep
    · exact EverySlot.of_connections (P := fun k slot => Settled (r k) slot) h hsame
    · refine EverySlot.of_moves (P := fun k slot => Settled (r k) slot) h hmoves ?_ fun h => h.elim
      rintro slot inner _ _ (rfl | ⟨input, rfl⟩) hsettled
      · exact settled_of_same hsettled .refl rfl id
      · exact settled_of_same hsettled (SamePolls.pollTransmit slot.inner input) rfl
          (open_of (closed_endRule.output.pollTransmit input))
  · by_cases hcommand : ∃ input, a = .command input
    · obtain ⟨input, rfl⟩ := hcommand
      exact h.command hw hstep
    · obtain ⟨replies, e, hworked, heq⟩ :=
        step_drains (fun input ha => hcommand ⟨input, ha⟩) hw hstep
      cases a with
      | receive event =>
        cases event with
        | forConnection =>
          refine h.of_drained replies hworked ?_ (fun _ _ => rfl) heq
          simp only [work, ite_none_right_eq_some, bind_eq_bind,
            bind_eq_some_iff, some.injEq] at hw
          obtain ⟨-, k, hk, slot, hslot, rfl⟩ := hw
          exact fun slot' hstreams hinner =>
            pending_handleDatagram (h k slot hslot) (htimely k slot hk hslot) hinner hstreams
        | newConnection incoming =>
          have hobserved : observeRequests s (.receive (.newConnection incoming) ‹Replies›) r =
              update r w.slotIdx fun _ => 0 := by
            simp only [observeRequests, hw]
          rw [hobserved]
          refine h.of_drained replies hworked ?_ (fun k hk => update_of_ne hk _ _) heq
          rw [update_self]
          simp only [work, ite_none_right_eq_some] at hw
          obtain ⟨-, hw⟩ := hw
          split at hw
          · rename_i ch conn endpoint haccept
            cases hw
            intro slot hstreams hinner
            have hinner : slot.inner = conn := hinner
            rw [← hinner] at haccept
            exact pending_accept haccept htimely hstreams
          · cases hw
        | response | nothing => cases hw
      | timer input =>
        refine h.of_drained replies hworked ?_ (fun _ _ => rfl) heq
        simp only [work] at hw
        split at hw
        · simp only [bind_eq_bind, bind_eq_some_iff, some.injEq] at hw
          obtain ⟨slot, hslot, rfl⟩ := hw
          intro slot' hstreams hinner
          refine (h _ slot hslot).toPending.of_same ?_ hstreams ?_
          · rw [hinner]
            exact .handleTimeout slot.inner s.now input
          · rw [hinner]
            exact open_of ((closed_endRule.input []).handleTimeout s.now input)
        · cases hw
      | command input => exact absurd ⟨input, rfl⟩ hcommand
      | _ => cases hw

end Steps

/-- Each stream opened was asked for, and each request served while the peer allows it. -/
theorem matched_of_timely {s : State × Requests} (hs : history.ReachableVia Timely s) {k : Nat}
    {slot : ConnectionSlot} (hslot : s.1.engine.slot k = some slot) : Matched (s.2 k) slot := by
  have hinv : Inv s := by
    refine hs.observed_invariant ?_ fun _ _ _ _ hinv htimely hstep => hinv.step htimely hstep
    rintro s ⟨config, networkTiles, rfl⟩ k slot hslot
    cases hslot
  exact (hinv k slot hslot).toPending.matched (hinv k slot hslot).quiet

/-- The limits that MAX_STREAMS frames set for a direction. -/
def countsOf (dir : Dir) (packets : List PacketInput) : List Nat :=
  (framesOf packets).filterMap fun
    | .maxStreams d n => if d = dir then some n else none
    | _ => none

theorem mem_countsOf {n : Nat} :
    n ∈ countsOf dir packets ↔ .maxStreams dir n ∈ framesOf packets := by
  rw [countsOf, List.mem_filterMap]
  constructor
  · rintro ⟨frame, hmem, hframe⟩
    split at hframe
    · split_ifs at hframe with hd
      cases hframe
      subst hd
      exact hmem
    · cases hframe
  · exact fun hmem => ⟨_, hmem, by simp⟩

def fitting (next max requests : Nat) (dir : Dir) (packets : List PacketInput) : Bool :=
  let count := ((countsOf dir packets).filter (max < ·)).headD 0
  (paramsOf packets).isEmpty && (countsOf dir packets).all
    (fun n => decide (n ≤ max ∨ n = count)) &&
    decide (max < count → next < requests ∧ (requests = next + 1 ∨ count = next + 1))

def timely (s : State × Requests) : Label → Bool
  | .receive (.forConnection ch d) _ =>
    (s.1.engine.chToSlot ch).all fun k => (s.1.engine.slot k).all fun slot =>
      Dir.all.all fun dir => fitting (slot.inner.streams.next dir) (slot.inner.streams.max dir)
        (s.2 k dir) dir d.packets
  | .receive (.newConnection incoming) _ =>
    Dir.all.all fun dir => (countsOf dir (packetsOf incoming)).isEmpty
  | _ => true

theorem timely_of_check (s : State × Requests) (a : Label) (h : timely s a = true) :
    Timely s a := by
  have hall : ∀ dir, dir ∈ Dir.all := by
    intro dir
    cases dir <;> simp [Dir.all]
  cases a with
  | receive event =>
    cases event with
    | forConnection =>
      intro k slot hk hslot dir
      simp only [timely, hk, hslot, all_some, List.all_eq_true] at h
      have hfits := h dir (hall dir)
      simp only [fitting, Bool.and_eq_true, List.isEmpty_iff, List.all_eq_true,
        decide_eq_true_eq] at hfits
      obtain ⟨⟨hparams, hframes⟩, hcount⟩ := hfits
      exact .inl ⟨hparams, _, fun n hn => hframes n (mem_countsOf.mpr hn), hcount⟩
    | newConnection =>
      intro dir n hn
      simp only [timely, List.all_eq_true, List.isEmpty_iff] at h
      have hmem := mem_countsOf.mpr hn
      rw [h dir (hall dir)] at hmem
      cases hmem
    | response | nothing => trivial
  | _ => trivial

def clientConnects : List Label :=
  [.arrive 0 [0], .runOnce 0, .receive smallWindowClient replies, .arrive 0 [0],
    .receive (.forConnection 0 (datagram [.decrypted handshakeDone])) replies]

def askFor (n : Nat) : List Label :=
  .accept 0 :: List.replicate n (.sendOpen ⟨0, 0⟩) ++ [.receive .nothing replies,
    .receive .nothing replies] ++ List.replicate (n + 1) (.command commandInput)

/-- `run_once` ends, and the next one receives the frames. -/
def thenReceive (frames : List Frame) : List Label :=
  [transmit [], transmit [], transmit [], noTimeout, transmit [], .arrive 0 [0], .runOnce 0,
    receiveFrames frames]

theorem raised_by_one_matched : ∃ s slot, history.ReachableVia Timely s ∧
    s.1.engine.slot 0 = some slot ∧ slot.inner.streams.next .bi = 2 ∧ Matched (s.2 0) slot := by
  have hinitial : history.ReachableVia Timely (.initial config 1, fun _ _ => 0) :=
    .initial ⟨⟨config, 1, rfl⟩, rfl⟩
  obtain ⟨s, hs, slot, hslot, hnext⟩ := hinitial.exists_of_runChecked timely_of_check
    (clientConnects ++ askFor 2 ++ thenReceive [.maxStreams .bi 2])
    (P := fun s => ∃ slot, s.1.engine.slot 0 = some slot ∧ slot.inner.streams.next .bi = 2)
    ⟨_, rfl, fun _ => ⟨_, rfl, rfl⟩⟩
  exact ⟨s, slot, hs, hslot, hnext, matched_of_timely hs hslot⟩

/-- A limit raised when nobody waits opens a stream that was not asked for, and one
raised by two when two wait opens one. -/
theorem raised_unmatched : (∃ s slot, history.Reachable s ∧ s.1.engine.slot 0 = some slot ∧
      s.2 0 .bi < slot.inner.streams.next .bi) ∧
    ∃ s slot, history.Reachable s ∧ s.1.phase = .idle ∧ s.1.engine.slot 0 = some slot ∧
      slot.inner.state.isClosed = false ∧
      slot.inner.streams.next .bi < slot.inner.streams.max .bi ∧
      slot.inner.streams.next .bi < s.2 0 .bi := by
  have hinitial : history.Reachable (.initial config 1, fun _ _ => 0) :=
    .initial ⟨⟨config, 1, rfl⟩, rfl⟩
  constructor
  · refine hinitial.exists₂_of_run
      (clientConnects ++ askFor 0 ++ thenReceive [.maxStreams .bi 2]) ?_
    exact ⟨_, _, rfl, rfl, by decide⟩
  · refine hinitial.exists₂_of_run
      (clientConnects ++ askFor 3 ++ thenReceive [.maxStreams .bi 3] ++
        [.receive .nothing replies, .receive .nothing replies, .command commandInput,
          transmit [], transmit [], transmit [], noTimeout, transmit []]) ?_
    exact ⟨_, _, rfl, rfl, rfl, rfl, by decide, by decide⟩

end Quac.OpenMatching
