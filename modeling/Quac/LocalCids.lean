import Mathlib.Data.Finset.Card
import Mathlib.Order.Interval.Finset.Nat
import Quac.Lib.Transition
import Quac.ProtoEndpoint

/-!
The connection IDs a connection hands out: `CidState` on the side of the
connection, the endpoint's record of what it issued, and the events and timer
that tie the two together.
-/

namespace Quac.LocalCids

open Identifiers Lib.Slabs Lib.Transition ProtoConnection ProtoEndpoint RecvHalf List

structure CidTimestamp where
  /-- Highest sequence number created in a batch. -/
  sequence : Nat
  timestamp : Instant

structure CidState where
  retireTimestamp : List CidTimestamp
  issued : Nat
  activeSeq : Finset Nat
  prevRetireSeq : Nat
  retireSeq : Nat
  cidLen : Nat
  cidLifetime : Option Nat

variable {newCidSeq sequence : Nat} {c : CidState} {ids : List Nat} {now : Instant}

namespace CidState

def nextTimeout (c : CidState) : Option Instant :=
  c.retireTimestamp.head?.map (·.timestamp)

/-- The deque with the expiry of one more ID; one that expires with the last
joins its batch. -/
def pushTimestamp (stamps : List CidTimestamp) (newCidSeq : Nat) (expireAt : Instant) :
    List CidTimestamp :=
  match stamps.getLast? with
  | some last =>
    if expireAt = last.timestamp then stamps.dropLast ++ [⟨newCidSeq, last.timestamp⟩]
    else stamps ++ [⟨newCidSeq, expireAt⟩]
  | none => [⟨newCidSeq, expireAt⟩]

/-- An expiry past `lastInstant`, the last one representable, is not tracked. -/
def trackLifetime (lastInstant : Instant) (c : CidState) (newCidSeq : Nat) (now : Instant) :
    CidState :=
  match c.cidLifetime with
  | none => c
  | some lifetime =>
    if lastInstant < now + lifetime then c
    else
      { c with retireTimestamp := pushTimestamp c.retireTimestamp newCidSeq (now + lifetime) }

def new (lastInstant : Instant) (cidLen : Nat) (cidLifetime : Option Nat) (now : Instant)
    (issued : Nat) : CidState :=
  (List.range issued).foldl (fun c seq => c.trackLifetime lastInstant seq now)
    { retireTimestamp := [], issued, activeSeq := Finset.range issued, prevRetireSeq := 0,
      retireSeq := 0, cidLen, cidLifetime }

/-- `(first..last).any(|seq| self.active_seq.contains(&seq))`. -/
def anyActive (c : CidState) (first last : Nat) : Bool :=
  decide (∃ seq ∈ c.activeSeq, first ≤ seq ∧ seq < last)

/-- The result tells whether a new ID must be pushed. -/
def onCidTimeout (c : CidState) : Bool × CidState :=
  let unretiredIdsFound := c.anyActive c.prevRetireSeq c.retireSeq
  let currentRetirePriorTo := c.retireSeq
  let nextRetireSequence := c.retireTimestamp.head?.map (·.sequence + 1)
  let c := { c with retireTimestamp := c.retireTimestamp.tail }
  let c :=
    if unretiredIdsFound then c
    else
      { c with prevRetireSeq := c.retireSeq, retireSeq := nextRetireSequence.getD c.retireSeq }
  (c.anyActive currentRetirePriorTo c.retireSeq, c)

def newCids (lastInstant : Instant) (c : CidState) (ids : List Nat) (now : Instant) : CidState :=
  match ids.getLast? with
  | none => c
  | some sequence =>
    { c with issued := c.issued + ids.length, activeSeq := c.activeSeq ∪ ids.toFinset }
      |>.trackLifetime lastInstant sequence now

/-- The result tells whether a new ID can be issued. -/
def onCidRetirement (c : CidState) (sequence limit : Nat) : Except TransportError Bool × CidState :=
  if c.cidLen = 0 then
    (.error ⟨.protocolViolation, "RETIRE_CONNECTION_ID when CIDs aren't in use"⟩, c)
  else if c.issued < sequence then
    (.error ⟨.protocolViolation, "RETIRE_CONNECTION_ID for unissued sequence number"⟩, c)
  else
    let c := { c with activeSeq := c.activeSeq.erase sequence }
    (.ok (decide (c.activeSeq.card < limit)), c)

/-- IDs the peer may still count as active: those it was not asked to retire. -/
def unexpired (c : CidState) : Finset Nat :=
  c.activeSeq.filter (c.retireSeq ≤ ·)

end CidState

/-! ### The endpoint's side -/

def following (issued count : Nat) : List Nat :=
  (List.range count).map (issued + ·)

/-- `send_new_identifiers`, with the sequence numbers it issues. -/
def issue (info : ConnectionMeta) (count : Nat) : ConnectionMeta × List Nat :=
  let ids := following info.cidsIssued count
  (⟨info.cidsIssued + count, info.locCids ++ ids⟩, ids)

/-- `Endpoint::handle_event`, with the new identifiers that go back. -/
def reply (info : ConnectionMeta) : EndpointEvent → ConnectionMeta × Option (List Nat)
  | .needIdentifiers count => ((issue info count).1, some (issue info count).2)
  | .retireConnectionId sequence allowMoreCids =>
    if sequence ∈ info.locCids then
      let info := { info with locCids := info.locCids.erase sequence }
      if allowMoreCids then ((issue info 1).1, some (issue info 1).2) else (info, none)
    else (info, none)
  | .resetToken | .drained => (info, none)

theorem sendNewIdentifiers_get {e : Endpoint} {ch : Nat} {info : ConnectionMeta}
    (hget : e.connections.get ch = some info) (count : Nat) :
    (e.sendNewIdentifiers ch count).connections.get ch = some (issue info count).1 := by
  simp only [Endpoint.sendNewIdentifiers, hget]
  rw [Slab.get_set _ _ _ _ (hget ▸ rfl), if_pos rfl]
  rfl

/-- The endpoint does this to the record of the connection that an event is from. -/
theorem handleEvent_get {e : Endpoint} {ch : Nat} {info : ConnectionMeta} {event : EndpointEvent}
    (hget : e.connections.get ch = some info) (halive : event ≠ .drained) :
    (e.handleEvent ch event).2.connections.get ch = some (reply info event).1 ∧
      (e.handleEvent ch event).1 = (reply info event).2.isSome := by
  cases event with
  | drained => exact absurd rfl halive
  | resetToken => exact ⟨hget, rfl⟩
  | needIdentifiers count => exact ⟨sendNewIdentifiers_get hget count, rfl⟩
  | retireConnectionId sequence =>
    simp only [Endpoint.handleEvent, hget, reply]
    have herased : (e.connections.set ch
        { info with locCids := info.locCids.erase sequence }).get ch =
        some { info with locCids := info.locCids.erase sequence } := by
      rw [Slab.get_set _ _ _ _ (hget ▸ rfl), if_pos rfl]
    split_ifs
    · exact ⟨sendNewIdentifiers_get herased 1, rfl⟩
    · exact ⟨herased, rfl⟩
    · exact ⟨hget, rfl⟩

/-! ### The two together -/

structure Config where
  /-- The peer's `active_connection_id_limit`. -/
  activeConnectionIdLimit : Nat
  two_le : 2 ≤ activeConnectionIdLimit
  /-- Whether this is a server with a preferred address. -/
  preferredAddress : Bool
  cidLen : Nat
  cidLifetime : Option Nat
  lastInstant : Instant

def locCidCount : Nat := 8

def Config.issueCidsLimit (cfg : Config) : Nat :=
  min cfg.activeConnectionIdLimit locCidCount

/-- IDs that were given out during the handshake. -/
def Config.handshakeCids (cfg : Config) : Nat :=
  if cfg.preferredAddress then 2 else 1

structure State where
  cids : CidState
  info : ConnectionMeta
  endpointEvents : List (Instant × EndpointEvent)
  /-- `Timer::PushNewCid`. -/
  pushNewCid : Option Instant
  firstIssued : Bool
  closed : Bool
  inDatagram : Bool

inductive Move
  | beginDatagram
  /-- The peer's transport parameters arrive. -/
  | issueFirstCids (now : Instant)
  | retireConnectionId (now : Instant) (sequence : Nat)
  | endDatagram
  | timeout (now : Instant)
  /-- The endpoint takes the first event and the connection its reply. -/
  | endpointEvent
  | close

variable (cfg : Config)

def start (now : Instant) : State where
  cids := .new cfg.lastInstant cfg.cidLen cfg.cidLifetime now cfg.handshakeCids
  info := ⟨cfg.handshakeCids, List.range cfg.handshakeCids⟩
  endpointEvents := []
  pushNewCid := none
  firstIssued := false
  closed := false
  inDatagram := false

/-- `Connection::handle_event` for `NewIdentifiers`. -/
def newIdentifiers (s : State) (ids : List Nat) (now : Instant) : State :=
  let cids := s.cids.newCids cfg.lastInstant ids now
  let due := s.pushNewCid.all (· ≤ now)
  { s with cids, pushNewCid := if due then cids.nextTimeout.or s.pushNewCid else s.pushNewCid }

/-- Endpoint events are handled when a datagram or a timeout is done with; frames
that retire IDs are read only once the peer's parameters are known, and a closed
connection reads none. -/
def step (s : State) : Move → Option State
  | .beginDatagram =>
    if s.inDatagram ∨ s.endpointEvents ≠ [] then none else some { s with inDatagram := true }
  | .issueFirstCids now =>
    if s.inDatagram ∧ ¬ s.firstIssued ∧ ¬ s.closed then
      let s := { s with firstIssued := true }
      if s.cids.cidLen = 0 then some s
      else
        let n := cfg.issueCidsLimit - 1 - if cfg.preferredAddress then 1 else 0
        some { s with endpointEvents := s.endpointEvents ++ [(now, .needIdentifiers n)] }
    else none
  | .retireConnectionId now sequence =>
    if s.inDatagram ∧ s.firstIssued ∧ ¬ s.closed then
      match s.cids.onCidRetirement sequence cfg.issueCidsLimit with
      | (.error _, cids) => some { s with cids, closed := true, pushNewCid := none }
      | (.ok allowMoreCids, cids) =>
        some { s with
          cids
          endpointEvents :=
            s.endpointEvents ++ [(now, .retireConnectionId sequence allowMoreCids)] }
    else none
  | .endDatagram => if s.inDatagram then some { s with inDatagram := false } else none
  | .timeout now =>
    if s.inDatagram ∨ s.endpointEvents ≠ [] then none
    else
      match s.pushNewCid with
      | none => none
      | some time =>
        if now < time then none
        else
          let (push, cids) := s.cids.onCidTimeout
          let s := { s with cids, pushNewCid := none }
          if s.closed then some s
          else
            some { s with
              endpointEvents := s.endpointEvents ++ [(now, .needIdentifiers push.toNat)] }
  | .endpointEvent =>
    if s.inDatagram then none
    else
      match s.endpointEvents with
      | [] => none
      | (now, event) :: endpointEvents =>
        let (info, ids) := reply s.info event
        let s := { s with info, endpointEvents }
        match ids with
        | none => some s
        | some ids => some (newIdentifiers cfg s ids now)
  | .close => some { s with closed := true, pushNewCid := none }

def system : System State Move where
  initial s := ∃ now, s = start cfg now
  step := step cfg

/-- No frame retires the ID that is issued next. -/
def RetiresIssued (s : State) : Move → Prop
  | .retireConnectionId _ sequence => sequence ≠ s.cids.issued
  | _ => True

instance : ∀ (s : State) (move : Move), Decidable (RetiresIssued s move)
  | s, .retireConnectionId _ sequence => inferInstanceAs (Decidable (sequence ≠ s.cids.issued))
  | _, .beginDatagram | _, .issueFirstCids _ | _, .endDatagram | _, .timeout _
  | _, .endpointEvent | _, .close => .isTrue trivial

/-! ### The connection's record -/

namespace CidState

/-- Sequence numbers are below what was issued, and expiries are tracked in their
order, from the first ID that the peer was not asked to retire. -/
structure Ordered (c : CidState) : Prop where
  active_lt : ∀ seq ∈ c.activeSeq, seq < c.issued
  retire_le : c.retireSeq ≤ c.issued
  sorted : c.retireTimestamp.Pairwise (·.sequence < ·.sequence)
  stamps : ∀ stamp ∈ c.retireTimestamp, c.retireSeq ≤ stamp.sequence ∧ stamp.sequence < c.issued

theorem pushTimestamp_eq (stamps : List CidTimestamp) (newCidSeq : Nat) (expireAt : Instant) :
    ∃ kept, kept.Sublist stamps ∧
      pushTimestamp stamps newCidSeq expireAt = kept ++ [⟨newCidSeq, expireAt⟩] := by
  unfold pushTimestamp
  split
  · split_ifs with heq
    · exact ⟨_, dropLast_sublist _, heq ▸ rfl⟩
    · exact ⟨_, .refl _, rfl⟩
  · exact ⟨_, nil_sublist _, rfl⟩

theorem trackLifetime_cases (lastInstant : Instant) (c : CidState) (newCidSeq : Nat)
    (now : Instant) :
    c.trackLifetime lastInstant newCidSeq now = c ∨
      ∃ kept expireAt, kept.Sublist c.retireTimestamp ∧ c.trackLifetime lastInstant newCidSeq now =
        { c with retireTimestamp := kept ++ [⟨newCidSeq, expireAt⟩] } := by
  unfold trackLifetime
  split
  · exact .inl rfl
  · split_ifs
    · exact .inl rfl
    · obtain ⟨kept, hkept, heq⟩ := pushTimestamp_eq c.retireTimestamp newCidSeq (now + _)
      exact .inr ⟨kept, _, hkept, by rw [heq]⟩

theorem Ordered.trackLifetime (h : c.Ordered)
    (hlt : ∀ stamp ∈ c.retireTimestamp, stamp.sequence < newCidSeq)
    (hretire : c.retireSeq ≤ newCidSeq) (hissued : newCidSeq < c.issued)
    (lastInstant now : Instant) : (c.trackLifetime lastInstant newCidSeq now).Ordered := by
  rcases trackLifetime_cases lastInstant c newCidSeq now with heq | ⟨kept, _, hkept, heq⟩ <;>
    rw [heq]
  · exact h
  · refine ⟨h.active_lt, h.retire_le, pairwise_append.mpr
      ⟨h.sorted.sublist hkept, pairwise_singleton _ _, ?_⟩, ?_⟩
    · intro stamp hstamp last hlast
      rw [mem_singleton.mp hlast]
      exact hlt stamp (hkept.subset hstamp)
    · intro stamp hstamp
      rcases mem_append.mp hstamp with hstamp | hstamp
      · exact h.stamps stamp (hkept.subset hstamp)
      · rw [mem_singleton.mp hstamp]
        exact ⟨hretire, hissued⟩

theorem trackLifetime_fields (lastInstant : Instant) (c : CidState) (newCidSeq : Nat)
    (now : Instant) : (c.trackLifetime lastInstant newCidSeq now).activeSeq = c.activeSeq ∧
      (c.trackLifetime lastInstant newCidSeq now).issued = c.issued ∧
      (c.trackLifetime lastInstant newCidSeq now).retireSeq = c.retireSeq := by
  rcases trackLifetime_cases lastInstant c newCidSeq now with h | ⟨_, _, -, h⟩ <;> rw [h] <;>
    exact ⟨rfl, rfl, rfl⟩

theorem mem_following {issued count seq : Nat} :
    seq ∈ following issued count ↔ issued ≤ seq ∧ seq < issued + count := by
  simp only [following, mem_map, mem_range]
  constructor
  · omega
  · rintro ⟨hge, hlt⟩
    exact ⟨seq - issued, by omega, by omega⟩

@[simp] theorem length_following (issued count : Nat) :
    (following issued count).length = count := by
  simp [following]

theorem newCids_fields (lastInstant : Instant) (c : CidState) (count : Nat) (now : Instant) :
    let c' := c.newCids lastInstant (following c.issued count) now
    c'.issued = c.issued + count ∧ c'.retireSeq = c.retireSeq ∧
      c'.activeSeq = c.activeSeq ∪ (following c.issued count).toFinset := by
  unfold newCids
  split
  · rename_i hnone
    have hcount : count = 0 := by
      simpa [following] using getLast?_eq_none_iff.mp hnone
    subst hcount
    simp [following]
  · simp [trackLifetime_fields]

theorem Ordered.newCids (h : c.Ordered) (lastInstant : Instant) (count : Nat)
    (now : Instant) : (c.newCids lastInstant (following c.issued count) now).Ordered := by
  unfold CidState.newCids
  split
  · exact h
  · rename_i last hlast
    have hbounds := mem_following.mp (mem_of_getLast? hlast)
    have hretire := h.retire_le
    have hlength := length_following c.issued count
    apply Ordered.trackLifetime
    · refine ⟨?_, ?_, h.sorted, ?_⟩
      · intro seq hseq
        dsimp only at hseq ⊢
        rw [hlength]
        rcases Finset.mem_union.mp hseq with hseq | hseq
        · have := h.active_lt seq hseq
          omega
        · exact (mem_following.mp (mem_toFinset.mp hseq)).2
      · dsimp only
        omega
      · intro stamp hstamp
        have := h.stamps stamp hstamp
        dsimp only
        omega
    · intro stamp hstamp
      have := h.stamps stamp hstamp
      omega
    all_goals
      dsimp only
      omega

theorem card_unexpired_newCids (lastInstant : Instant) (c : CidState) (count : Nat)
    (now : Instant) :
    (c.newCids lastInstant (following c.issued count) now).unexpired.card ≤
      c.unexpired.card + count := by
  obtain ⟨-, hretire, hactive⟩ := newCids_fields lastInstant c count now
  rw [unexpired, hretire, hactive, Finset.filter_union]
  calc
    _ ≤ c.unexpired.card + ((following c.issued count).toFinset.filter _).card :=
      Finset.card_union_le _ _
    _ ≤ c.unexpired.card + (following c.issued count).toFinset.card := by
      have := Finset.card_filter_le (following c.issued count).toFinset (c.retireSeq ≤ ·)
      omega
    _ ≤ c.unexpired.card + count := by
      have hle := toFinset_card_le (following c.issued count)
      rw [length_following] at hle
      omega

theorem onCidTimeout_cases (c : CidState) : ∃ retireSeq prevRetireSeq, c.onCidTimeout.2 =
        { c with retireTimestamp := c.retireTimestamp.tail, retireSeq, prevRetireSeq } ∧
      c.onCidTimeout.1 = c.anyActive c.retireSeq retireSeq ∧
      (retireSeq = c.retireSeq ∨
        ∃ stamp rest, c.retireTimestamp = stamp :: rest ∧ retireSeq = stamp.sequence + 1) := by
  unfold onCidTimeout
  dsimp only
  split_ifs
  · exact ⟨c.retireSeq, c.prevRetireSeq, rfl, rfl, .inl rfl⟩
  · refine ⟨_, _, rfl, rfl, ?_⟩
    cases hstamps : c.retireTimestamp with
    | nil => exact .inl rfl
    | cons stamp rest => exact .inr ⟨stamp, rest, rfl, rfl⟩

theorem Ordered.onCidTimeout (h : c.Ordered) : c.onCidTimeout.2.Ordered := by
  obtain ⟨_, _, heq, -, hretire⟩ := c.onCidTimeout_cases
  rw [heq]
  have hsorted := h.sorted.sublist (tail_sublist c.retireTimestamp)
  rcases hretire with rfl | ⟨stamp, _, hstamps, rfl⟩
  · exact ⟨h.active_lt, h.retire_le, hsorted, fun stamp hstamp =>
      h.stamps stamp (mem_of_mem_tail hstamp)⟩
  · have hfirst := h.stamps stamp (hstamps ▸ mem_cons_self)
    refine ⟨h.active_lt, by dsimp only; omega, hsorted, ?_⟩
    intro later hlater
    have hbounds := h.stamps later (mem_of_mem_tail hlater)
    have hpairs := h.sorted
    rw [hstamps, pairwise_cons] at hpairs
    rw [hstamps] at hlater
    have hlt := hpairs.1 later hlater
    dsimp only
    omega

/-- A new ID is pushed only if an active one is asked back. -/
theorem card_unexpired_onCidTimeout (h : c.Ordered) :
    c.onCidTimeout.2.unexpired.card + c.onCidTimeout.1.toNat ≤ c.unexpired.card := by
  obtain ⟨retireSeq, _, heq, hpush, hretire⟩ := c.onCidTimeout_cases
  have hle : c.retireSeq ≤ retireSeq := by
    rcases hretire with rfl | ⟨stamp, _, hstamps, rfl⟩
    · exact le_rfl
    · have := h.stamps stamp (hstamps ▸ mem_cons_self)
      omega
  rw [heq, hpush]
  have hsub : c.activeSeq.filter (retireSeq ≤ ·) ⊆ c.unexpired := by
    intro seq hseq
    rw [Finset.mem_filter] at hseq
    exact Finset.mem_filter.mpr ⟨hseq.1, hle.trans hseq.2⟩
  cases hany : c.anyActive c.retireSeq retireSeq with
  | false => exact Finset.card_le_card hsub
  | true =>
    obtain ⟨seq, hseq, hge, _⟩ := of_decide_eq_true hany
    apply Finset.card_lt_card
    refine (Finset.ssubset_iff_of_subset hsub).mpr
      ⟨seq, Finset.mem_filter.mpr ⟨hseq, hge⟩, fun hmem => ?_⟩
    exact absurd (Finset.mem_filter.mp hmem).2 (by omega)

end CidState

open CidState

/-! ### New IDs that queued events will bring -/

/-- How many IDs the endpoint will issue for the events, from a record of the IDs
`locCids`. -/
def grants : List Nat → List EndpointEvent → Nat
  | _, [] => 0
  | locCids, .needIdentifiers count :: events => count + grants locCids events
  | locCids, .retireConnectionId sequence allowMoreCids :: events =>
    (if sequence ∈ locCids ∧ allowMoreCids then 1 else 0) + grants (locCids.erase sequence) events
  | locCids, .resetToken :: events | locCids, .drained :: events => grants locCids events

def remaining : List Nat → List EndpointEvent → List Nat
  | locCids, [] => locCids
  | locCids, .retireConnectionId sequence _ :: events => remaining (locCids.erase sequence) events
  | locCids, .needIdentifiers _ :: events | locCids, .resetToken :: events
  | locCids, .drained :: events => remaining locCids events

theorem grants_append (locCids : List Nat) (events : List EndpointEvent) (event : EndpointEvent) :
    grants locCids (events ++ [event]) =
      grants locCids events + grants (remaining locCids events) [event] := by
  induction events generalizing locCids with
  | nil => simp [grants, remaining]
  | cons first _ ih => cases first <;> simp only [cons_append, grants, remaining, ih] <;> omega

theorem remaining_append (locCids : List Nat) (events : List EndpointEvent)
    (event : EndpointEvent) :
    remaining locCids (events ++ [event]) = remaining (remaining locCids events) [event] := by
  induction events generalizing locCids with
  | nil => rfl
  | cons first _ ih => cases first <;> simp only [cons_append, remaining, ih]

theorem remaining_sublist (locCids : List Nat) (events : List EndpointEvent) :
    (remaining locCids events).Sublist locCids := by
  induction events generalizing locCids with
  | nil => exact List.Sublist.refl _
  | cons first _ ih =>
    cases first with
    | retireConnectionId => exact (ih _).trans erase_sublist
    | needIdentifiers _ | resetToken | drained => exact ih _

def Spares (events : List EndpointEvent) (ids : List Nat) : Prop :=
  ∀ sequence allowMoreCids, .retireConnectionId sequence allowMoreCids ∈ events → sequence ∉ ids

theorem Spares.tail {first : EndpointEvent} {events : List EndpointEvent}
    (h : Spares (first :: events) ids) : Spares events ids :=
  fun sequence allow hmem => h sequence allow (mem_cons_of_mem _ hmem)

theorem erase_append_of_notMem (h : sequence ∉ ids)
    (locCids : List Nat) : (locCids ++ ids).erase sequence = locCids.erase sequence ++ ids := by
  by_cases hmem : sequence ∈ locCids
  · exact erase_append_left _ hmem
  · rw [erase_append_right _ hmem, erase_of_not_mem h, erase_of_not_mem hmem]

theorem grants_remaining_extend {events : List EndpointEvent} (h : Spares events ids)
    (locCids : List Nat) : grants (locCids ++ ids) events = grants locCids events ∧
      remaining (locCids ++ ids) events = remaining locCids events ++ ids := by
  induction events generalizing locCids with
  | nil => exact ⟨rfl, rfl⟩
  | cons first events ih =>
    cases first with
    | retireConnectionId sequence allow =>
      have hspared := h sequence allow mem_cons_self
      simp [grants, remaining, hspared, erase_append_of_notMem hspared, ih h.tail]
    | needIdentifiers _ | resetToken | drained => simp [grants, remaining, ih h.tail]

/-! ### Runs -/

def State.events (s : State) : List EndpointEvent :=
  s.endpointEvents.map (·.2)

def State.grants (s : State) : Nat :=
  LocalCids.grants s.info.locCids s.events

structure Agree (s : State) : Prop where
  ordered : s.cids.Ordered
  issued : s.info.cidsIssued = s.cids.issued
  loc_lt : ∀ seq ∈ s.info.locCids, seq < s.cids.issued
  nodup : s.info.locCids.Nodup
  pending : ∀ sequence allowMoreCids,
    .retireConnectionId sequence allowMoreCids ∈ s.events → sequence < s.cids.issued
  remaining : ∀ seq ∈ remaining s.info.locCids s.events, seq ∈ s.cids.activeSeq

/-- Queued events bring no more IDs than there is room for.  While a datagram is
read this counts the IDs asked back as well, since only their number decides
whether a frame brings a new one. -/
structure Inv (s : State) : Prop where
  agree : Agree s
  bound : s.cids.unexpired.card + s.grants ≤ cfg.issueCidsLimit
  datagram : s.inDatagram → s.grants = 0 ∨ s.cids.activeSeq.card + s.grants ≤ cfg.issueCidsLimit
  first : s.firstIssued = false →
    s.endpointEvents = [] ∧ s.pushNewCid = none ∧ s.cids.activeSeq.card ≤ cfg.handshakeCids

variable {cfg} {s s' : State}

theorem CidState.card_unexpired_le (c : CidState) : c.unexpired.card ≤ c.activeSeq.card :=
  Finset.card_filter_le _ _

theorem Agree.spares (h : Agree s) (count : Nat) :
    Spares s.events (following s.cids.issued count) := by
  intro sequence allow hmem hfollowing
  have hlt := h.pending sequence allow hmem
  have := (mem_following.mp hfollowing).1
  omega

theorem newIdentifiers_cids (s : State) (ids : List Nat) (now : Instant) :
    (newIdentifiers cfg s ids now).cids = s.cids.newCids cfg.lastInstant ids now := rfl

theorem agree_issue (cfg : Config) (h : Agree s) (count : Nat) (now : Instant) :
    let t := newIdentifiers cfg { s with info := (issue s.info count).1 }
      (issue s.info count).2 now
    Agree t ∧ t.cids.unexpired.card ≤ s.cids.unexpired.card + count ∧ t.grants = s.grants := by
  have hids : (issue s.info count).2 = following s.cids.issued count := by
    rw [← h.issued]
    rfl
  have hloc : (issue s.info count).1.locCids = s.info.locCids ++ following s.cids.issued count := by
    rw [← h.issued]
    rfl
  obtain ⟨hissued, -, hactive⟩ := newCids_fields cfg.lastInstant s.cids count now
  rw [hids]
  have hspares := h.spares count
  refine ⟨⟨h.ordered.newCids _ _ _, ?_, ?_, ?_, ?_, ?_⟩,
    card_unexpired_newCids _ _ _ _, ?_⟩
  · rw [newIdentifiers_cids, hissued, ← h.issued]
    rfl
  · intro seq hseq
    change seq ∈ (issue s.info count).1.locCids at hseq
    rw [newIdentifiers_cids, hissued]
    rw [hloc] at hseq
    rcases mem_append.mp hseq with hseq | hseq
    · have := h.loc_lt seq hseq
      omega
    · exact (mem_following.mp hseq).2
  · change (issue s.info count).1.locCids.Nodup
    rw [hloc]
    refine nodup_append.mpr ⟨h.nodup, ?_, ?_⟩
    · exact nodup_range.map fun _ _ heq => Nat.add_left_cancel heq
    · intro seq hseq seq' hseq' heq
      have hlt := h.loc_lt seq hseq
      have := (mem_following.mp hseq').1
      omega
  · intro sequence allow hmem
    have hlt := h.pending sequence allow hmem
    rw [newIdentifiers_cids, hissued]
    omega
  · intro seq hseq
    change seq ∈ LocalCids.remaining (issue s.info count).1.locCids s.events at hseq
    rw [hloc, (grants_remaining_extend hspares _).2] at hseq
    rw [newIdentifiers_cids, hactive]
    rcases mem_append.mp hseq with hseq | hseq
    · exact Finset.mem_union_left _ (h.remaining seq hseq)
    · exact Finset.mem_union_right _ (mem_toFinset.mpr hseq)
  · change LocalCids.grants (issue s.info count).1.locCids s.events = _
    rw [hloc, (grants_remaining_extend hspares _).1]
    rfl

theorem two_le_issueCidsLimit (cfg : Config) : 2 ≤ cfg.issueCidsLimit :=
  le_min cfg.two_le (by decide)

theorem handshakeCids_le (cfg : Config) : cfg.handshakeCids ≤ 2 := by
  unfold Config.handshakeCids
  split_ifs <;> decide

/-- The active IDs stay, and no more of them are to be retired. -/
theorem Agree.of_same (h : Agree s) (hordered : s'.cids.Ordered)
    (hissued : s'.cids.issued = s.cids.issued) (hactive : s'.cids.activeSeq = s.cids.activeSeq)
    (hcount : s'.info.cidsIssued = s.info.cidsIssued)
    (hloc : s'.info.locCids.Sublist s.info.locCids)
    (hevents : ∀ event ∈ s'.events, event ∈ s.events ∨ ∃ count, event = .needIdentifiers count)
    (hremaining : LocalCids.remaining s'.info.locCids s'.events =
      LocalCids.remaining s.info.locCids s.events) : Agree s' where
  ordered := hordered
  issued := by rw [hcount, hissued, h.issued]
  loc_lt seq hseq := hissued ▸ h.loc_lt seq (hloc.subset hseq)
  nodup := h.nodup.sublist hloc
  pending sequence allow hmem := by
    rcases hevents _ hmem with hold | ⟨_, hnew⟩
    · exact hissued ▸ h.pending sequence allow hold
    · cases hnew
  remaining := by rw [hremaining, hactive]; exact h.remaining

theorem Agree.of_eq (h : Agree s) (hcids : s'.cids = s.cids) (hinfo : s'.info = s.info)
    (hevents : s'.events = s.events) : Agree s' :=
  h.of_same (hcids ▸ h.ordered) (by rw [hcids]) (by rw [hcids]) (by rw [hinfo]) (by rw [hinfo])
    (fun _ hmem => .inl (hevents ▸ hmem)) (by rw [hinfo, hevents])

theorem CidState.onCidRetirement_cases (c : CidState) (sequence limit : Nat) :
    (∃ e, c.onCidRetirement sequence limit = (.error e, c)) ∨ sequence ≤ c.issued ∧ ∃ allow,
        c.onCidRetirement sequence limit =
          (.ok allow, { c with activeSeq := c.activeSeq.erase sequence }) ∧
        (allow = true ↔ (c.activeSeq.erase sequence).card < limit) := by
  unfold onCidRetirement
  split_ifs with hlen hissued
  · exact .inl ⟨_, rfl⟩
  · exact .inl ⟨_, rfl⟩
  · exact .inr ⟨by omega, _, rfl, decide_eq_true_iff⟩

theorem CidState.Ordered.erase (h : c.Ordered) (sequence : Nat) :
    ({ c with activeSeq := c.activeSeq.erase sequence } : CidState).Ordered where
  active_lt seq hseq := h.active_lt seq (Finset.mem_of_mem_erase hseq)
  retire_le := h.retire_le
  sorted := h.sorted
  stamps := h.stamps

theorem Agree.retire (h : Agree s) {allow : Bool} (hlt : sequence < s.cids.issued) : Agree { s with
      cids := { s.cids with activeSeq := s.cids.activeSeq.erase sequence }
      endpointEvents := s.endpointEvents ++ [(now, .retireConnectionId sequence allow)] } where
  ordered := h.ordered.erase sequence
  issued := h.issued
  loc_lt := h.loc_lt
  nodup := h.nodup
  pending := by
    intro sequence' allow' hmem
    simp only [State.events, map_append, map_singleton, mem_append,
      mem_singleton, EndpointEvent.retireConnectionId.injEq] at hmem
    rcases hmem with hmem | ⟨rfl, -⟩
    · exact h.pending _ _ hmem
    · exact hlt
  remaining := by
    intro seq hseq
    simp only [State.events, map_append, map_singleton] at hseq
    rw [remaining_append] at hseq
    have hnodup := h.nodup.sublist (remaining_sublist s.info.locCids s.events)
    obtain ⟨hne, hseq⟩ := hnodup.mem_erase_iff.mp hseq
    exact Finset.mem_erase.mpr ⟨hne, h.remaining seq hseq⟩

theorem inv_retireConnectionId (h : Inv cfg s) (hfresh : sequence ≠ s.cids.issued)
    (hstep : step cfg s (.retireConnectionId now sequence) = some s') : Inv cfg s' := by
  have hagree := h.agree
  simp only [step] at hstep
  split_ifs at hstep with hguard
  obtain ⟨hdatagram, hfirst, -⟩ := hguard
  have hroom := h.datagram hdatagram
  have hbound := h.bound
  obtain ⟨e, hrefused⟩ | ⟨_, allow, hretired, hallow⟩ :=
    s.cids.onCidRetirement_cases sequence cfg.issueCidsLimit
  · rw [hrefused] at hstep
    cases hstep
    exact ⟨hagree.of_eq rfl rfl rfl, hbound, h.datagram, fun hf => by simp [hfirst] at hf⟩
  rw [hretired] at hstep
  have hs' := (Option.some.inj hstep).symm
  have hcids : s'.cids = { s.cids with activeSeq := s.cids.activeSeq.erase sequence } := by rw [hs']
  have hsum : s'.grants = s.grants +
      (if sequence ∈ remaining s.info.locCids s.events ∧ allow then 1 else 0) := by
    rw [hs', State.grants, State.events, map_append]
    exact grants_append _ _ _
  -- the frame brings a new ID only for an active one, and only below the limit
  have hgrants : s'.grants = 0 ∨ s'.cids.activeSeq.card + s'.grants ≤ cfg.issueCidsLimit := by
    have hcard := Finset.card_erase_le (s := s.cids.activeSeq) (a := sequence)
    rw [hsum, hcids]
    dsimp only
    split_ifs with hgain
    · have hactive := Finset.card_erase_add_one (hagree.remaining sequence hgain.1)
      have := hallow.mp hgain.2
      omega
    · omega
  refine ⟨hs' ▸ hagree.retire (by omega), ?_, fun _ => hgrants, fun hf => ?_⟩
  · have hactive := s'.cids.card_unexpired_le
    have hsub : s'.cids.unexpired.card ≤ s.cids.unexpired.card := by
      rw [hcids]
      exact Finset.card_le_card (Finset.filter_subset_filter _ (Finset.erase_subset _ _))
    omega
  · rw [hs'] at hf
    simp [hfirst] at hf

theorem inv_issueFirstCids (h : Inv cfg s) (hstep : step cfg s (.issueFirstCids now) = some s') :
    Inv cfg s' := by
  simp only [step] at hstep
  generalize hn : cfg.issueCidsLimit - 1 - (if cfg.preferredAddress then 1 else 0) = n at hstep
  split_ifs at hstep with hguard <;> cases hstep
  · exact ⟨h.agree.of_eq rfl rfl rfl, h.bound, h.datagram, by simp⟩
  have hfirst : s.firstIssued = false := by simpa using hguard.2.1
  obtain ⟨hnone, -, _⟩ := h.first hfirst
  have hsum : cfg.handshakeCids + n ≤ cfg.issueCidsLimit := by
    have hlimit := two_le_issueCidsLimit cfg
    rw [← hn, Config.handshakeCids]
    split_ifs <;> omega
  have hunexpired := s.cids.card_unexpired_le
  rw [hnone]
  refine ⟨h.agree.of_same h.agree.ordered rfl rfl rfl (.refl _) (by simp [State.events]) ?_, ?_,
    fun _ => .inr ?_, by simp⟩
  · rw [State.events, State.events, hnone]
    rfl
  · change s.cids.unexpired.card + n ≤ _
    omega
  · change s.cids.activeSeq.card + n ≤ _
    omega

theorem step_timeout_cases (hstep : step cfg s (.timeout now) = some s') :
    ¬ s.inDatagram ∧ s.endpointEvents = [] ∧ s.pushNewCid.isSome ∧ ∃ endpointEvents,
        s' = { s with cids := s.cids.onCidTimeout.2, pushNewCid := none, endpointEvents } ∧
        (endpointEvents = [] ∨
          endpointEvents = [(now, .needIdentifiers s.cids.onCidTimeout.1.toNat)]) := by
  simp only [step] at hstep
  by_cases hguard : s.inDatagram ∨ s.endpointEvents ≠ []
  · simp [hguard] at hstep
  rw [if_neg hguard] at hstep
  obtain ⟨hdatagram, hnone⟩ := not_or.mp hguard
  have hnone : s.endpointEvents = [] := not_not.mp hnone
  split at hstep
  · simp at hstep
  rename_i time htimer
  refine ⟨hdatagram, hnone, by simp [htimer], ?_⟩
  split_ifs at hstep
  · cases hstep
    exact ⟨s.endpointEvents, rfl, .inl hnone⟩
  · cases hstep
    exact ⟨_, rfl, .inr (by rw [hnone]; rfl)⟩

theorem inv_timeout (h : Inv cfg s) (hstep : step cfg s (.timeout now) = some s') : Inv cfg s' := by
  obtain ⟨hdatagram, hnone, htimer, endpointEvents, rfl, hevents⟩ := step_timeout_cases hstep
  have hfirst : s.firstIssued = true := by
    by_contra hf
    rw [(h.first (by simpa using hf)).2.1] at htimer
    simp at htimer
  have hcard := card_unexpired_onCidTimeout h.agree.ordered
  have hbound := h.bound
  obtain ⟨_, _, heq, -, -⟩ := s.cids.onCidTimeout_cases
  obtain ⟨hgrants, hnew, hremaining⟩ :
      grants s.info.locCids (endpointEvents.map (·.2)) ≤ s.cids.onCidTimeout.1.toNat ∧
      (∀ event ∈ endpointEvents.map (·.2), event ∈ s.events ∨
        ∃ count, event = .needIdentifiers count) ∧
      remaining s.info.locCids (endpointEvents.map (·.2)) = remaining s.info.locCids s.events := by
    rw [State.events, hnone]
    rcases hevents with rfl | rfl <;> simp [grants, remaining]
  refine ⟨h.agree.of_same h.agree.ordered.onCidTimeout ?_ ?_ rfl (.refl _) hnew hremaining, ?_,
    fun hd => absurd hd hdatagram, by simp [hfirst]⟩
  · rw [heq]
  · rw [heq]
  · exact (Nat.add_le_add_left hgrants _).trans (hcard.trans (by omega))

theorem reply_cases (info : ConnectionMeta) (event : EndpointEvent) :
    ∃ locCids, (∀ events, grants info.locCids (event :: events) =
        (((reply info event).2.map length).getD 0) + grants locCids events) ∧
      (∀ events, remaining info.locCids (event :: events) = remaining locCids events) ∧
      locCids.Sublist info.locCids ∧
      ((reply info event) = ({ info with locCids }, none) ∨ ∃ count, reply info event =
          ((issue { info with locCids } count).1, some (issue { info with locCids } count).2)) := by
  cases event with
  | resetToken | drained =>
    exact ⟨info.locCids, fun _ => (zero_add _).symm, fun _ => rfl, List.Sublist.refl _, .inl rfl⟩
  | needIdentifiers count =>
    refine ⟨info.locCids, fun _ => ?_, fun _ => rfl, List.Sublist.refl _, .inr ⟨count, rfl⟩⟩
    simp [grants, reply, issue]
  | retireConnectionId sequence =>
    refine ⟨info.locCids.erase sequence, fun _ => ?_, fun _ => rfl, erase_sublist, ?_⟩
    · simp only [grants, reply]
      split_ifs <;> simp_all [issue]
    · simp only [reply]
      split_ifs with hmem
      · exact .inr ⟨1, rfl⟩
      · exact .inl rfl
      · exact .inl (by rw [erase_of_not_mem hmem])

theorem inv_endpointEvent (h : Inv cfg s) (hstep : step cfg s .endpointEvent = some s') :
    Inv cfg s' := by
  simp only [step] at hstep
  split_ifs at hstep with hdatagram
  split at hstep
  · simp at hstep
  rename_i now event endpointEvents hevents
  have hfirst : s.firstIssued = true := by
    by_contra hf
    rw [(h.first (by simpa using hf)).1] at hevents
    simp at hevents
  have hall : s.events = event :: endpointEvents.map (·.2) := by
    rw [State.events, hevents]
    rfl
  obtain ⟨locCids, hgrants, hremaining, hsublist, hreply⟩ := reply_cases s.info event
  -- the record without what the event retires, before anything new is issued
  obtain ⟨t, ht⟩ : ∃ t : State,
      t = { s with info := { s.info with locCids }, endpointEvents } := ⟨_, rfl⟩
  have hagree : Agree t := by
    subst ht
    refine h.agree.of_same h.agree.ordered rfl rfl rfl hsublist (fun event hmem => .inl ?_) ?_
    · rw [hall]
      exact mem_cons_of_mem _ hmem
    · rw [hall, hremaining]
      rfl
  have hbound := h.bound
  rw [State.grants, hall, hgrants] at hbound
  rcases hreply with hreply | ⟨count, hreply⟩
  · rw [hreply] at hstep hbound
    subst ht
    cases hstep
    refine ⟨hagree, ?_, fun hd => absurd hd hdatagram, by simp [hfirst]⟩
    rw [Option.map_none, Option.getD_none, zero_add] at hbound
    exact hbound
  · rw [hreply] at hstep hbound
    obtain ⟨hagree', hcard, hgrants'⟩ := agree_issue cfg hagree count now
    simp only [Option.map_some, Option.getD_some, issue, length_following] at hbound
    subst ht
    cases hstep
    refine ⟨hagree', ?_, fun hd => absurd hd hdatagram, by simp [newIdentifiers, hfirst]⟩
    refine (Nat.add_le_add hcard (le_of_eq hgrants')).trans ?_
    rw [add_assoc]
    exact hbound

/-- Tracking the IDs of the handshake, one after the other. -/
theorem CidState.ordered_new (lastInstant : Instant) (cidLen : Nat) (cidLifetime : Option Nat)
    (now : Instant) (issued : Nat) :
    (CidState.new lastInstant cidLen cidLifetime now issued).Ordered ∧
      (CidState.new lastInstant cidLen cidLifetime now issued).activeSeq = Finset.range issued ∧
      (CidState.new lastInstant cidLen cidLifetime now issued).issued = issued := by
  -- after the first `k` rounds every expiry is of one of the first `k` IDs
  have hrounds : ∀ k ≤ issued,
      let c := (range k).foldl (fun c seq => c.trackLifetime lastInstant seq now)
        { retireTimestamp := [], issued, activeSeq := Finset.range issued, prevRetireSeq := 0,
          retireSeq := 0, cidLen, cidLifetime : CidState }
      c.Ordered ∧ c.activeSeq = Finset.range issued ∧ c.issued = issued ∧ c.retireSeq = 0 ∧
        ∀ stamp ∈ c.retireTimestamp, stamp.sequence < k := by
    intro k
    induction k with
    | zero =>
      intro _
      exact ⟨⟨fun _ => Finset.mem_range.mp, Nat.zero_le _, List.Pairwise.nil, by simp⟩, rfl, rfl,
        rfl, by simp⟩
    | succ k ih =>
      intro hk
      obtain ⟨hordered, hactive, hissued, hretire, hlt⟩ := ih (by omega)
      rw [range_succ, foldl_append, foldl_cons, foldl_nil]
      obtain ⟨hactive', hissued', hretire'⟩ := trackLifetime_fields lastInstant
        ((range k).foldl (fun c seq => c.trackLifetime lastInstant seq now) _) k now
      refine ⟨hordered.trackLifetime hlt (by omega) (by omega) _ _, hactive'.trans hactive,
        hissued'.trans hissued, hretire'.trans hretire, fun stamp hstamp => ?_⟩
      rcases trackLifetime_cases lastInstant _ k now with heq | ⟨kept, _, hkept, heq⟩ <;>
        rw [heq] at hstamp
      · exact Nat.lt_succ_of_lt (hlt stamp hstamp)
      · rcases mem_append.mp hstamp with hstamp | hstamp
        · exact Nat.lt_succ_of_lt (hlt stamp (hkept.subset hstamp))
        · rw [mem_singleton.mp hstamp]
          exact Nat.lt_succ_self k
  obtain ⟨hordered, hactive, hissued, -⟩ := hrounds issued le_rfl
  exact ⟨hordered, hactive, hissued⟩

theorem inv_start (now : Instant) : Inv cfg (start cfg now) := by
  obtain ⟨hordered, hactive, hissued⟩ := ordered_new cfg.lastInstant cfg.cidLen
    cfg.cidLifetime now cfg.handshakeCids
  have hcard : (start cfg now).cids.activeSeq.card = cfg.handshakeCids := by
    rw [show (start cfg now).cids.activeSeq = _ from hactive, Finset.card_range]
  have hhandshake := handshakeCids_le cfg
  have hlimit := two_le_issueCidsLimit cfg
  refine ⟨⟨hordered, hissued.symm, ?_, nodup_range, ?_, ?_⟩, ?_, ?_, ?_⟩
  · intro seq hseq
    rw [show (start cfg now).cids.issued = _ from hissued]
    exact mem_range.mp hseq
  · simp [State.events, start]
  · intro seq hseq
    rw [show (start cfg now).cids.activeSeq = _ from hactive]
    exact Finset.mem_range.mpr (mem_range.mp hseq)
  · have := (start cfg now).cids.card_unexpired_le
    have hgrants : (start cfg now).grants = 0 := rfl
    omega
  · exact fun _ => .inl rfl
  · exact fun _ => ⟨rfl, rfl, hcard.le⟩

theorem inv_step (h : Inv cfg s) {move : Move} (hissued : RetiresIssued s move)
    (hstep : step cfg s move = some s') : Inv cfg s' := by
  cases move with
  | beginDatagram =>
    simp only [step] at hstep
    split_ifs at hstep with hguard
    cases hstep
    have hnone : s.endpointEvents = [] := not_not.mp (not_or.mp hguard).2
    refine ⟨h.agree.of_eq rfl rfl rfl, h.bound, fun _ => .inl ?_, h.first⟩
    simp [State.grants, State.events, hnone, grants]
  | issueFirstCids => exact inv_issueFirstCids h hstep
  | retireConnectionId => exact inv_retireConnectionId h hissued hstep
  | endDatagram =>
    simp only [step] at hstep
    split_ifs at hstep with hguard
    cases hstep
    exact ⟨h.agree.of_eq rfl rfl rfl, h.bound, by simp, h.first⟩
  | timeout => exact inv_timeout h hstep
  | endpointEvent => exact inv_endpointEvent h hstep
  | close =>
    cases hstep
    exact ⟨h.agree.of_eq rfl rfl rfl, h.bound, h.datagram,
      fun hf => ⟨(h.first hf).1, rfl, (h.first hf).2.2⟩⟩

/-- The IDs that the peer was not asked to retire stay within its limit. -/
theorem unexpired_within_limit {cfg : Config} {s : State}
    (hs : (system cfg).ReachableVia RetiresIssued s) :
    s.cids.unexpired.card ≤ cfg.issueCidsLimit := by
  have hinv : Inv cfg s := by
    refine hs.invariant ?_ fun _ _ _ h hissued hstep => inv_step h hissued hstep
    rintro s ⟨now, rfl⟩
    exact inv_start now
  have := hinv.bound
  omega

/-- A peer that keeps three IDs, and IDs that never expire. -/
def threeIds : Config where
  activeConnectionIdLimit := 3
  two_le := by decide
  preferredAddress := false
  cidLen := 9
  cidLifetime := none
  lastInstant := 1000000

def retireTwo (first second : Nat) : List Move :=
  [.beginDatagram, .issueFirstCids 0, .endDatagram, .endpointEvent,
    .beginDatagram, .retireConnectionId 1 first, .retireConnectionId 1 second, .endDatagram,
    .endpointEvent, .endpointEvent]

/-- Two issued IDs are replaced by two new ones. -/
theorem retire_two_within_limit : ∃ s, (system threeIds).ReachableVia RetiresIssued s ∧
      s.cids.activeSeq = {2, 3, 4} ∧ s.cids.unexpired.card ≤ threeIds.issueCidsLimit := by
  have hinitial : (system threeIds).ReachableVia RetiresIssued (start threeIds 0) :=
    .initial ⟨0, rfl⟩
  have hcheck : ∀ s move, decide (RetiresIssued s move) = true → RetiresIssued s move :=
    fun _ _ h => of_decide_eq_true h
  exact hinitial.exists_of_runChecked hcheck (retireTwo 0 1)
    ⟨_, rfl, fun hreach => ⟨by decide +kernel, unexpired_within_limit hreach⟩⟩

/-- A frame for the ID that the one before it brings: the endpoint replaces that ID
as well, while the connection counts it on. -/
theorem unexpired_past_limit : ∃ s, (system threeIds).Reachable s ∧
      s.cids.activeSeq = {1, 2, 3, 4} ∧ threeIds.issueCidsLimit < s.cids.unexpired.card := by
  have hinitial : (system threeIds).Reachable (start threeIds 0) := .initial ⟨0, rfl⟩
  exact hinitial.exists_of_run (retireTwo 0 3) ⟨_, rfl, by decide +kernel, by decide +kernel⟩

/-! ### Retirement of IDs that were never issued -/

/-- The calls of a `CidState`; new IDs have the endpoint's next sequence numbers. -/
inductive Call
  | newCids (count : Nat) (now : Instant)
  | onCidTimeout
  | onCidRetirement (sequence limit : Nat)

structure History where
  cids : CidState
  info : ConnectionMeta
  /-- The sequence numbers of the IDs the peer was given. -/
  given : List Nat

def calls (cfg : Config) : System History Call where
  initial s := ∃ now, s = ⟨(start cfg now).cids, (start cfg now).info, List.range cfg.handshakeCids⟩
  step s
    | .newCids count now =>
      let (info, ids) := issue s.info count
      some ⟨s.cids.newCids cfg.lastInstant ids now, info, s.given ++ ids⟩
    | .onCidTimeout => some { s with cids := s.cids.onCidTimeout.2 }
    | .onCidRetirement sequence limit =>
      some { s with cids := (s.cids.onCidRetirement sequence limit).2 }

/-- A frame that retires an ID fails if the ID was never issued, and otherwise retires
that ID and no other. -/
def History.RejectsUnissued (s : History) (sequence limit : Nat) : Prop :=
  ((∃ reason, (s.cids.onCidRetirement sequence limit).1 = .error ⟨.protocolViolation, reason⟩) ↔
    sequence ∉ s.given) ∧
  (sequence ∈ s.given → (s.cids.onCidRetirement sequence limit).2 =
    { s.cids with activeSeq := s.cids.activeSeq.erase sequence })

def History.Consecutive (s : History) : Prop :=
  s.info.cidsIssued = s.cids.issued ∧ ∀ seq, seq ∈ s.given ↔ seq < s.cids.issued

theorem consecutive_of_reachable {s : History} (hs : (calls cfg).Reachable s) : s.Consecutive := by
  refine hs.invariant ?_ ?_
  · rintro s ⟨now, rfl⟩
    have hissued : (start cfg now).cids.issued = cfg.handshakeCids :=
      (ordered_new _ _ _ _ _).2.2
    exact ⟨hissued.symm, fun seq => hissued ▸ mem_range⟩
  · rintro s call s' ⟨hissued, hgiven⟩ hstep
    cases call with
    | newCids count now =>
      cases hstep
      have hcount := (newCids_fields cfg.lastInstant s.cids count now).1
      dsimp only [History.Consecutive, issue]
      rw [hissued, hcount]
      refine ⟨rfl, fun seq => ?_⟩
      rw [mem_append, hgiven, mem_following]
      omega
    | onCidTimeout =>
      cases hstep
      obtain ⟨_, _, heq, -⟩ := s.cids.onCidTimeout_cases
      rw [History.Consecutive, heq]
      exact ⟨hissued, hgiven⟩
    | onCidRetirement sequence limit =>
      cases hstep
      obtain ⟨_, heq⟩ | ⟨-, _, heq, -⟩ := s.cids.onCidRetirement_cases sequence limit <;>
        rw [History.Consecutive, heq] <;> exact ⟨hissued, hgiven⟩

/-- The check lets through the one number that is issued next. -/
theorem retirement_rejected_iff {s : History} (hs : (calls cfg).Reachable s)
    (hlen : s.cids.cidLen ≠ 0) (sequence limit : Nat) :
    s.RejectsUnissued sequence limit ↔ sequence ≠ s.cids.issued := by
  have hgiven := (consecutive_of_reachable hs).2 sequence
  simp only [History.RejectsUnissued, CidState.onCidRetirement, if_neg hlen, hgiven]
  split_ifs with hissued
  · exact ⟨fun _ => by omega, fun _ => ⟨⟨fun _ => by omega, fun _ => ⟨_, rfl⟩⟩, fun _ => by omega⟩⟩
  · constructor
    · rintro ⟨hrejected, -⟩ rfl
      obtain ⟨_, h⟩ := hrejected.mpr (lt_irrefl _)
      cases h
    · intro hne
      exact ⟨⟨by rintro ⟨_, ⟨⟩⟩, fun hnew => by omega⟩, fun _ => rfl⟩

theorem retirement_rejected_two :
    ∃ s, (calls threeIds).Reachable s ∧ s.cids.issued = 1 ∧ s.RejectsUnissued 2 3 := by
  have hinitial : (calls threeIds).Reachable _ := .initial ⟨0, rfl⟩
  exact ⟨_, hinitial, rfl, (retirement_rejected_iff hinitial (by decide) 2 3).mpr (by decide)⟩

/-- The only ID has number zero, and yet number one can be retired. -/
theorem unissued_retired : ∃ s, (calls threeIds).Reachable s ∧ s.cids.cidLen ≠ 0 ∧ 1 ∉ s.given ∧
      (s.cids.onCidRetirement 1 3).1 = .ok true ∧ ¬ s.RejectsUnissued 1 3 := by
  have hinitial : (calls threeIds).Reachable _ := .initial ⟨0, rfl⟩
  refine ⟨_, hinitial, by decide, by decide, by decide, fun h => ?_⟩
  obtain ⟨_, h⟩ := h.1.mpr (by decide)
  cases h

end Quac.LocalCids
