import Mathlib.Algebra.BigOperators.Group.List.Basic
import Quac.Recovery

/-!
The bytes and packets in flight on a path are those of the packets still tracked
that were sent on it.

A packet leaves the tracked ones before it leaves the counters; what was taken out
and is not yet counted off is owed.
-/

namespace Quac.FlightAccounts

open Function Identifiers Lib.Faults Lib.SortedMaps Lib.Transition PacketSpaces Recovery Connection
open Ensures List Option

variable {f : InFlight} {l owed : List SentPacket} {c c' : Connection} {id : SpaceId}
  {x : Except Fault Connection} {number : Nat} {p : Incoming}

structure Counts (f : InFlight) (packets : List SentPacket) : Prop where
  bytes : f.bytes = (packets.map (·.size)).sum
  ackEliciting : f.ackEliciting = packets.countP (·.ackEliciting)

theorem counts_new : Counts .new [] :=
  ⟨rfl, rfl⟩

theorem Counts.perm {l' : List SentPacket} (h : Counts f l) (hl : l.Perm l') : Counts f l' := by
  constructor
  · rw [h.bytes]
    exact (hl.map _).sum_eq
  · rw [h.ackEliciting]
    exact hl.countP_eq _

theorem countP_cons_toNat (packet : SentPacket) (l : List SentPacket) :
    (packet :: l).countP (·.ackEliciting) =
      l.countP (·.ackEliciting) + packet.ackEliciting.toNat := by
  rw [countP_cons]
  cases packet.ackEliciting <;> rfl

theorem Counts.insert (h : Counts f l) (packet : SentPacket) :
    Counts (f.insert packet) (packet :: l) := by
  constructor
  · rw [InFlight.insert, h.bytes, map_cons, sum_cons, add_comm]
  · rw [InFlight.insert, h.ackEliciting, countP_cons_toNat]

variable {packet : SentPacket}

theorem Counts.remove (h : Counts f (packet :: l)) :
    Safe (Counts · l) (f.remove packet) := by
  have hbytes : f.bytes = packet.size + (l.map (·.size)).sum := by
    rw [h.bytes, map_cons, sum_cons]
  have hack : f.ackEliciting = l.countP (·.ackEliciting) + packet.ackEliciting.toNat := by
    rw [h.ackEliciting, countP_cons_toNat]
  rw [InFlight.remove, if_pos ⟨by omega, by omega⟩]
  exact .ok ⟨by dsimp only; omega, by dsimp only; omega⟩

def sentOn (generation : Nat) (packets : List SentPacket) : List SentPacket :=
  packets.filter (·.pathGeneration = generation)

theorem sentOn_cons_of_eq {generation : Nat} (l : List SentPacket)
    (h : packet.pathGeneration = generation) :
    sentOn generation (packet :: l) = packet :: sentOn generation l := by
  rw [sentOn, filter_cons_of_pos (by simpa using h), sentOn]

theorem sentOn_cons_of_ne {generation : Nat} (l : List SentPacket)
    (h : packet.pathGeneration ≠ generation) :
    sentOn generation (packet :: l) = sentOn generation l := by
  rw [sentOn, filter_cons_of_neg (by simpa using h), sentOn]

def tracked (c : Connection) : List SentPacket :=
  SpaceId.all.flatMap fun id => (c.spaces id).sentPackets.values

theorem tracked_eq (c : Connection) : tracked c = (c.spaces .initial).sentPackets.values ++
      ((c.spaces .handshake).sentPackets.values ++ (c.spaces .data).sentPackets.values) := by
  simp [tracked, SpaceId.all]

variable {space : PacketSpace}

theorem tracked_perm (gained lost : List SentPacket)
    (h : (gained ++ (c.spaces id).sentPackets.values).Perm (lost ++ space.sentPackets.values)) :
    (gained ++ tracked c).Perm (lost ++ tracked (c.setSpace id space)) := by
  rw [tracked_eq, tracked_eq]
  rw [perm_iff_count] at h ⊢
  intro a
  have ha := h a
  cases id <;>
    simp only [setSpace, update_self, update_of_ne, count_append,
      ne_eq, reduceCtorEq, not_false_eq_true] at ha ⊢ <;>
    omega

/-- The counters of both paths are those of the packets tracked and owed. -/
structure Accounts (c : Connection) (owed : List SentPacket) : Prop where
  path : Counts c.path.inFlight (sentOn c.path.generation (owed ++ tracked c))
  prev : ∀ prev, c.prevPath = some prev → prev.generation ≠ c.path.generation ∧
    Counts prev.inFlight (sentOn prev.generation (owed ++ tracked c))

theorem Accounts.setSpace (h : Accounts c owed) (lost : List SentPacket)
    (hlost : (c.spaces id).sentPackets.values.Perm (lost ++ space.sentPackets.values)) :
    Accounts (c.setSpace id space) (lost ++ owed) := by
  have hperm : (owed ++ tracked c).Perm (lost ++ owed ++ tracked (c.setSpace id space)) := by
    have htracked : (tracked c).Perm (lost ++ tracked (c.setSpace id space)) :=
      tracked_perm [] lost hlost
    rw [append_assoc]
    exact (htracked.append_left owed).trans (perm_append_comm_assoc _ _ _)
  constructor
  · exact h.path.perm (hperm.filter _)
  · intro prev hprev
    exact ⟨(h.prev prev hprev).1, (h.prev prev hprev).2.perm (hperm.filter _)⟩

theorem Accounts.congr (h : Accounts c owed)
    (hspaces : c'.spaces = c.spaces) (hflight : c'.path.inFlight = c.path.inFlight)
    (hgeneration : c'.path.generation = c.path.generation)
    (hprev : c'.prevPath.map (fun prev => (prev.generation, prev.inFlight)) =
      c.prevPath.map fun prev => (prev.generation, prev.inFlight)) : Accounts c' owed := by
  have htracked : tracked c' = tracked c := by
    simp only [tracked, hspaces]
  constructor
  · rw [hflight, hgeneration, htracked]
    exact h.path
  · intro prev hsome
    rw [hsome] at hprev
    obtain ⟨old, hold, heq⟩ := map_eq_some_iff.mp hprev.symm
    obtain ⟨hgen, hfl⟩ := Prod.ext_iff.mp heq
    change old.generation = prev.generation at hgen
    change old.inFlight = prev.inFlight at hfl
    rw [hgeneration, htracked, ← hgen, ← hfl]
    exact h.prev old hold

structure Sheds (c c' : Connection) : Prop where
  side : c'.side = c.side
  state : c'.state = .established → c.state = .established
  highestSpace : c'.highestSpace = c.highestSpace
  pathCounter : c'.pathCounter = c.pathCounter
  generation : c'.path.generation = c.path.generation
  pending : c'.path.challengePending = c.path.challengePending
  prevPath : c'.prevPath.map (·.generation) = c.prevPath.map (·.generation)
  spaces : ∀ id, (c.spaces id).Sheds (c'.spaces id)

@[refl] theorem Sheds.refl (c : Connection) : Sheds c c :=
  ⟨rfl, id, rfl, rfl, rfl, rfl, rfl, fun _ => .refl _⟩

theorem Sheds.trans {d e : Connection} (h : Sheds c d) (h' : Sheds d e) : Sheds c e where
  side := h'.side.trans h.side
  state he := h.state (h'.state he)
  highestSpace := h'.highestSpace.trans h.highestSpace
  pathCounter := h'.pathCounter.trans h.pathCounter
  generation := h'.generation.trans h.generation
  pending := h'.pending.trans h.pending
  prevPath := h'.prevPath.trans h.prevPath
  spaces id := (h.spaces id).trans (h'.spaces id)

theorem setSpace_self : (c.setSpace id space).spaces id = space :=
  update_self _ _ _

theorem setSpace_of_ne {j : SpaceId} (hne : j ≠ id) :
    (c.setSpace id space).spaces j = c.spaces j :=
  update_of_ne hne _ _

theorem setSpace_forall {P : SpaceId → PacketSpace → Prop} (hself : P id space)
    (hother : ∀ j, j ≠ id → P j (c.spaces j)) (j : SpaceId) :
    P j ((c.setSpace id space).spaces j) := by
  rcases eq_or_ne j id with rfl | hne
  · rw [setSpace_self]
    exact hself
  · rw [setSpace_of_ne hne]
    exact hother j hne

theorem sheds_setSpace (h : (c.spaces id).Sheds space) :
    Sheds c (c.setSpace id space) :=
  ⟨rfl, fun hstate => hstate, rfl, rfl, rfl, rfl, rfl, setSpace_forall h fun _ _ => .refl _⟩

/-- `x` counts off what `c` owes, but for `owed`; its result has a connection in it. -/
def SettlesBy {α : Type} (get : α → Connection) (c : Connection) (owed : List SentPacket)
    (x : Except Fault α) : Prop :=
  Ensures Fault.IsUnderflow (fun r => Sheds c (get r) ∧ Accounts (get r) owed) x

abbrev Settles :=
  SettlesBy fun c => c

abbrev SettlesAnd {β : Type} :=
  SettlesBy (Prod.fst : Connection × β → Connection)

section Settles

variable {α β : Type} {d : Connection} {get : α → Connection} {x : Except Fault α}

theorem SettlesBy.after (h : SettlesBy get d owed x) (hd : Sheds c d) : SettlesBy get c owed x :=
  Ensures.mono h fun _ ⟨hsheds, haccounts⟩ => ⟨hd.trans hsheds, haccounts⟩

theorem SettlesBy.bind {owed' : List SentPacket} {get' : β → Connection} {f : α → Except Fault β}
    (h : SettlesBy get c owed x)
    (hf : ∀ r, Sheds c (get r) → Accounts (get r) owed → SettlesBy get' (get r) owed' (f r)) :
    SettlesBy get' c owed' (x >>= f) :=
  Ensures.bind h fun r ⟨hsheds, haccounts⟩ => (hf r hsheds haccounts).after hsheds

theorem settles_ok (h : Accounts c owed) : Settles c owed (.ok c) :=
  .ok ⟨.refl c, h⟩

theorem settlesAnd_ok (h : Accounts c owed) (b : β) : SettlesAnd c owed (.ok (c, b)) :=
  .ok ⟨.refl c, h⟩

end Settles

variable {path : PathData}

theorem removeInFlight_path (h : Counts path.inFlight (sentOn path.generation (packet :: l))) :
    Safe (fun r => Counts r.2.inFlight (sentOn path.generation l) ∧
        r.2 = { path with inFlight := r.2.inFlight } ∧
        (packet.pathGeneration = path.generation ∧ r.1 = true ∨
          packet.pathGeneration ≠ path.generation ∧ r = (false, path)))
      (path.removeInFlight packet) := by
  rw [PathData.removeInFlight]
  split_ifs with hne
  · rw [sentOn_cons_of_ne l hne] at h
    exact .ok ⟨h, rfl, .inr ⟨hne, rfl⟩⟩
  · have heq := not_not.mp hne
    rw [sentOn_cons_of_eq l heq] at h
    apply h.remove.bind
    intro inFlight hcounts
    exact .ok ⟨hcounts, rfl, .inl ⟨heq, rfl⟩⟩

theorem removeInFlight_settles (h : Accounts c (packet :: owed)) :
    Settles c owed (c.removeInFlight packet) := by
  have hpath := removeInFlight_path h.path
  apply hpath.bind
  rintro ⟨found, path⟩ ⟨hcounts, hrest, ⟨hgen, hfound⟩ | ⟨hgen, heq⟩⟩
  · dsimp only at hcounts hrest hfound
    subst hfound
    have hgeneration : path.generation = c.path.generation := by rw [hrest]
    refine .ok ⟨{ Sheds.refl c with generation := hgeneration, pending := by rw [hrest] }, ?_⟩
    constructor
    · rw [hgeneration]
      exact hcounts
    · intro prev hprev
      obtain ⟨hne, hcount⟩ := h.prev prev hprev
      rw [cons_append, sentOn_cons_of_ne _ (hgen.trans_ne hne.symm)] at hcount
      exact ⟨hgeneration ▸ hne, hcount⟩
  · obtain ⟨rfl, rfl⟩ := Prod.ext_iff.mp heq
    rcases hprev : c.prevPath with _ | prev
    · refine settles_ok ⟨hcounts, ?_⟩
      rintro prev hsome
      rw [hprev] at hsome
      cases hsome
    · obtain ⟨hne, hcount⟩ := h.prev prev hprev
      apply (removeInFlight_path hcount).bind
      rintro ⟨found, prev'⟩ ⟨hcount', hrest', -⟩
      dsimp only at hcount' hrest'
      have hgen' : prev'.generation = prev.generation := by rw [hrest']
      refine .ok ⟨{ Sheds.refl c with prevPath := ?_ }, hcounts, ?_⟩
      · rw [hprev, map_some, map_some, hgen']
      · rintro q ⟨⟩
        exact ⟨hgen' ▸ hne, hgen' ▸ hcount'⟩

theorem removeAll_settles (h : Accounts c (l ++ owed)) :
    Settles c owed (l.foldlM removeInFlight c) := by
  refine foldlM (fun rest d => Sheds c d ∧ Accounts d (rest ++ owed)) ?_ ⟨.refl c, h⟩
  rintro packet rest d ⟨hsheds, haccounts⟩
  exact (removeInFlight_settles haccounts).after hsheds

theorem removeAll_spaces (c : Connection) (l : List SentPacket) :
    Ensures (fun _ => False) (fun c' => c'.spaces = c.spaces ∧ c'.state = c.state)
      (l.foldlM removeInFlight c) := by
  refine foldlM
    (fun _ (d : Connection) => d.spaces = c.spaces ∧ d.state = c.state) ?_ ⟨rfl, rfl⟩
  rintro packet _ d hd
  apply (ensures_true _).bind
  rintro ⟨found, path⟩ -
  dsimp only
  split_ifs
  · exact .ok hd
  · split
    · exact .ok hd
    · apply (ensures_true _).bind
      rintro ⟨_, prev⟩ -
      exact .ok hd

theorem giveUp_settles (h : Accounts c owed) (hspace : (c.spaces id).Sheds space)
    (hempty : space.sentPackets = .empty) : Safe
      (fun c' => Sheds c c' ∧ Accounts c' owed ∧ space.Sheds (c'.spaces id))
      ((c.spaces id).sentPackets.values.foldlM removeInFlight
        (c.setSpace id space)) := by
  have hlost : (c.spaces id).sentPackets.values.Perm
      ((c.spaces id).sentPackets.values ++ space.sentPackets.values) := by
    rw [hempty, SortedMap.values_empty, append_nil]
  apply mono (removeAll_settles (h.setSpace _ hlost))
  rintro d ⟨hsheds, haccounts⟩
  refine ⟨(sheds_setSpace hspace).trans hsheds, haccounts, ?_⟩
  simpa only [setSpace_self] using hsheds.spaces id

theorem abandonAll_settles (h : Accounts c owed)
    (id : SpaceId) : Settles c owed (c.abandonAll id) := by
  have hspace : (c.spaces id).Sheds { c.spaces id with sentPackets := .empty } :=
    ⟨fun h => h, le_rfl, rfl, by rintro e ⟨⟩, rfl, fun _ => fun h => h, .inl⟩
  exact mono (giveUp_settles h hspace rfl) fun d hd => ⟨hd.1, hd.2.1⟩

theorem discardSpace_eq (c : Connection) (id : SpaceId) :
    c.discardSpace id = (c.spaces id).sentPackets.values.foldlM removeInFlight
      (c.setSpace id { c.spaces id with crypto := false, sentPackets := .empty }) := by
  simp only [discardSpace, abandonAll, setSpace, update_self, update_idem]

theorem discardSpace_others (c : Connection) (id : SpaceId) : Ensures (fun _ => False)
      (fun d => (∀ j, j ≠ id → d.spaces j = c.spaces j) ∧ d.state = c.state)
      (c.discardSpace id) := by
  rw [discardSpace_eq]
  apply (removeAll_spaces _ _).mono
  rintro d ⟨hspaces, hstate⟩
  refine ⟨?_, hstate⟩
  intro j hj
  rw [hspaces]
  exact setSpace_of_ne hj

theorem discardSpace_ensures (h : Accounts c owed) (id : SpaceId) : Safe
      (fun c' => Sheds c c' ∧ Accounts c' owed ∧ (c'.spaces id).crypto = false ∧
        (c'.spaces id).sentPackets.entries = []) (c.discardSpace id) := by
  have hspace : (c.spaces id).Sheds
      { c.spaces id with crypto := false, sentPackets := .empty } :=
    ⟨nofun, le_rfl, rfl, by rintro e ⟨⟩, rfl, fun _ h => h, fun _ => .inr rfl⟩
  rw [discardSpace_eq]
  apply mono (giveUp_settles h hspace rfl)
  rintro d ⟨hsheds, haccounts, hlast⟩
  exact ⟨hsheds, haccounts, hlast.crypto_eq_false rfl, hlast.entries_eq_nil rfl⟩

theorem discardSpace_settles (h : Accounts c owed)
    (id : SpaceId) : Settles c owed (c.discardSpace id) :=
  mono (discardSpace_ensures h id) fun _ hd => ⟨hd.1, hd.2.1⟩

theorem take_settles {owed' : List SentPacket} (h : Accounts c owed) {packet : Nat}
    {k : Option SentPacket × PacketSpace → Except Fault Connection}
    (hk : ∀ info space, Accounts (c.setSpace id space) (info.toList ++ owed) →
      Settles (c.setSpace id space) owed' (k (info, space))) :
    Settles c owed' ((c.spaces id).take packet >>= k) := by
  apply ((c.spaces id).take_ensures packet).bind
  rintro ⟨info, space⟩ ⟨hsheds, hperm⟩
  exact (hk info space (h.setSpace _ hperm)).after (sheds_setSpace hsheds)

theorem losePacket_settles (h : Accounts c owed)
    (id : SpaceId) (packet : Nat) : Settles c owed (losePacket id c packet) := by
  apply take_settles h
  rintro (_ | info) space haccounts
  · exact not_isUnderflow_panic
  · exact removeInFlight_settles haccounts

theorem clearProbe_settles (h : Accounts c owed) :
    Settles c owed (.ok { c with path := { c.path with inFlightMtuProbe := none } }) :=
  .ok ⟨{ Sheds.refl c with }, h.congr rfl rfl rfl rfl⟩

theorem ackPacket_settles (h : Accounts c owed)
    (id : SpaceId) (packet : Nat) : Settles c owed (ackPacket id c packet) := by
  apply take_settles h
  rintro (_ | info) space haccounts
  · exact settles_ok haccounts
  · dsimp only
    split_ifs
    · obtain ⟨hsheds, hclear⟩ := ensures_ok.mp (clearProbe_settles haccounts)
      exact (removeInFlight_settles hclear).after hsheds
    · exact removeInFlight_settles haccounts

theorem foldlM_settles {f : Connection → Nat → Except Fault Connection}
    (hf : ∀ c packet, Accounts c owed → Settles c owed (f c packet)) {c : Connection}
    (h : Accounts c owed) (packets : List Nat) : Settles c owed (packets.foldlM f c) := by
  refine foldlM (fun _ d => Sheds c d ∧ Accounts d owed) ?_ ⟨.refl c, h⟩
  rintro packet _ d ⟨hsheds, haccounts⟩
  exact (hf d packet haccounts).after hsheds

theorem detectLostPackets_settles (h : Accounts c owed)
    (now : Instant) (id : SpaceId) (lossDelay : Nat) (blackHole : Bool) :
    Settles c owed (c.detectLostPackets now id lossDelay blackHole) := by
  rw [detectLostPackets]
  split
  · exact not_isUnderflow_panic
  · apply (foldlM_settles (fun c packet hc => losePacket_settles hc id packet) h _).bind
    intro d _ hd
    have hprobe : ∀ e, Accounts e owed → ∀ packet, Settles e owed
        (losePacket .data e packet >>= fun e =>
          .ok { e with path := { e.path with inFlightMtuProbe := none } }) := by
      intro e he packet
      apply (losePacket_settles he .data packet).bind
      intro e' _ he'
      exact clearProbe_settles he'
    split_ifs
    · obtain ⟨hsheds, hclear⟩ := ensures_ok.mp (clearProbe_settles hd)
      apply SettlesBy.after _ hsheds
      split
      · exact settles_ok hclear
      · exact hprobe _ hclear _
    · split
      · exact settles_ok hd
      · exact hprobe _ hd _

section Frames

variable {c : Connection} {owed : List SentPacket}

theorem largestAcked_settles (h : Accounts c owed) (id : SpaceId) (largest : Option Nat) :
    Settles c owed
      (.ok (c.setSpace id { c.spaces id with largestAckedPacket := largest })) :=
  .ok
    ⟨sheds_setSpace ⟨fun h => h, le_rfl, rfl, fun _ h => h, rfl, fun _ h => h, .inl⟩,
      h.setSpace [] (.refl _)⟩

theorem onAckReceived_settles (h : Accounts c owed) (now : Instant) (id : SpaceId) (ack : Ack) :
    SettlesAnd c owed (c.onAckReceived now id ack) := by
  obtain ⟨d, hd, hsheds, hda⟩ : ∃ d, d = (if (c.spaces id).largestAckedPacket.all (· < ack.largest)
      then c.setSpace id { c.spaces id with largestAckedPacket := some ack.largest } else c) ∧
      Sheds c d ∧ Accounts d owed := by
    refine ⟨_, rfl, ?_⟩
    split_ifs
    · exact largestAcked_settles h id (some ack.largest)
    · exact ⟨.refl c, h⟩
  rw [onAckReceived]
  simp only [← hd]
  split_ifs
  · exact settlesAnd_ok h _
  · exact (settlesAnd_ok hda _).after hsheds
  · apply SettlesBy.after _ hsheds
    apply (foldlM_settles (fun c packet hc => ackPacket_settles hc id packet) hda _).bind
    intro e _ he
    apply (detectLostPackets_settles he now id ack.lossDelay ack.blackHole).bind
    intro e' _ he'
    exact settlesAnd_ok he' _
  · exact (settlesAnd_ok hda _).after hsheds

theorem processFrame_settles (h : Accounts c owed) (p : Incoming) (frame : Frame) :
    SettlesAnd c owed (c.processFrame p frame) := by
  induction frame with
  | padding | probing | close | other => exact settlesAnd_ok h _
  | ack ack => exact onAckReceived_settles h p.now .data ack
  | pathResponse =>
    rw [processFrame]
    split_ifs
    · refine .ok ⟨{ Sheds.refl c with prevPath := ?_ }, ?_⟩
      · exact map_map _ _ _
      · exact h.congr rfl rfl rfl (map_map _ _ _)
    · exact settlesAnd_ok h _
  | handshakeDone =>
    rw [processFrame]
    split_ifs
    · exact settlesAnd_ok h _
    · apply (discardSpace_settles h .handshake).bind
      intro d _ hd
      exact settlesAnd_ok hd _
    · exact settlesAnd_ok h _

theorem processFrames_settles (h : Accounts c owed) (p : Incoming) (frames : List Frame) :
    SettlesAnd c owed (c.processFrames p frames) := by
  induction frames generalizing c with
  | nil => exact settlesAnd_ok h _
  | cons frame _ ih =>
    apply (processFrame_settles h p frame).bind
    rintro ⟨d, ok⟩ - hd
    dsimp only
    split_ifs
    · exact ih hd
    · exact settlesAnd_ok hd _

theorem close_settles (h : Accounts c owed) : Settles c owed (.ok { c with state := .closed }) :=
  .ok ⟨{ Sheds.refl c with state := nofun }, h.congr rfl rfl rfl rfl⟩

theorem processEarlyFrames_settles (h : Accounts c owed) (p : Incoming) (frames : List Frame) :
    SettlesAnd c owed (c.processEarlyFrames p frames) := by
  induction frames generalizing c with
  | nil => exact settlesAnd_ok h _
  | cons frame _ ih =>
    cases frame with
    | padding => exact ih h
    | ack ack =>
      apply (onAckReceived_settles h p.now p.kind.space ack).bind
      rintro ⟨d, ok⟩ - hd
      dsimp only
      split_ifs
      · exact ih hd
      · exact settlesAnd_ok hd _
    | pathResponse | handshakeDone | probing => exact settlesAnd_ok h _
    | close => exact close_settles h
    | other fails =>
      cases fails
      · exact ih h
      · exact settlesAnd_ok h _

end Frames

section Shape

/-- Only the Data space is in use, as after the handshake of a server. -/
def Left (c : Connection) : Prop :=
  c.highestSpace ≠ .initial ∧ ∀ id, id ≠ .data → (c.spaces id).crypto = false

/-- The packets tracked in a space have numbers it gave out and paths that are known, and
only the Data space tracks packets without keys. -/
structure SpaceShape (pathCounter : Nat) (id : SpaceId) (s : PacketSpace) : Prop where
  numbers : ∀ e ∈ s.sentPackets.entries, e.1 < s.nextPacketNumber
  known : ∀ e ∈ s.sentPackets.entries, e.2.pathGeneration ≤ pathCounter
  keyless : id ≠ .data → s.crypto = false → s.sentPackets.entries = []

structure Shape (c : Connection) : Prop where
  spaces : ∀ id, SpaceShape c.pathCounter id (c.spaces id)
  generation : c.path.generation ≤ c.pathCounter
  prevGeneration : ∀ prev, c.prevPath = some prev → prev.generation ≤ c.pathCounter
  handshakeKeys : c.highestSpace = .initial → (c.spaces .handshake).crypto = false
  client : c.side = .client → c.prevPath = none
  left : c.side = .server ∧ c.state = .established ∨ c.prevPath ≠ none → Left c
  /-- Every migration has its own packet number. -/
  counter : c.pathCounter = 0 ∨ (c.spaces .data).dedup.Seen (c.spaces .data).rxPacket ∧
      c.pathCounter ≤ (c.spaces .data).rxPacket + 1

/-- After the last packet that elicits acknowledgements, only the current path was
used. -/
def OwnTail (c : Connection) : Prop :=
  ∀ e ∈ (c.spaces .data).sentPackets.entries, (c.spaces .data).largestAckElicitingSent < e.1 →
    e.2.pathGeneration = c.path.generation

/-- A new path starts with a packet that elicits acknowledgements, for it carries the
PATH_CHALLENGE. -/
structure Inv (c : Connection) : Prop where
  shape : Shape c
  accounts : Accounts c []
  tail : c.prevPath ≠ none → c.path.challengePending = true ∨ OwnTail c

variable {c c' : Connection}

theorem Sheds.prevPath_ne_none (h : Sheds c c') (hne : c'.prevPath ≠ none) : c.prevPath ≠ none := by
  intro hnone
  have hmap := h.prevPath
  rw [hnone, map_none, map_eq_none_iff] at hmap
  exact hne hmap

theorem Sheds.left (h : Sheds c c') (hleft : Left c) : Left c' := by
  refine ⟨h.highestSpace ▸ hleft.1, ?_⟩
  intro id hid
  exact (h.spaces id).crypto_eq_false (hleft.2 id hid)

theorem Sheds.ownTail (h : Sheds c c') (htail : OwnTail c) : OwnTail c' := by
  intro e he hlt
  have hdata := h.spaces .data
  rw [hdata.largest] at hlt
  rw [h.generation]
  exact htail e (hdata.entries e he) hlt

theorem SpaceShape.sheds {n : Nat} {s s' : PacketSpace} (h : SpaceShape n id s)
    (hs : s.Sheds s') : SpaceShape n id s' where
  numbers e he := lt_of_lt_of_le (h.numbers e (hs.entries e he)) hs.next
  known e he := h.known e (hs.entries e he)
  keyless hid hcrypto := by
    rcases hs.keyless hcrypto with hold | hempty
    · exact hs.entries_eq_nil (h.keyless hid hold)
    · exact hempty

theorem Sheds.shape (h : Sheds c c') (hs : Shape c) : Shape c' where
  spaces id := by
    rw [h.pathCounter]
    exact (hs.spaces id).sheds (h.spaces id)
  generation := by
    rw [h.generation, h.pathCounter]
    exact hs.generation
  prevGeneration prev hprev := by
    have hmap := h.prevPath
    rw [hprev, map_some] at hmap
    obtain ⟨old, hold, hgen⟩ := map_eq_some_iff.mp hmap.symm
    rw [← hgen, h.pathCounter]
    exact hs.prevGeneration old hold
  handshakeKeys hhighest :=
    (h.spaces .handshake).crypto_eq_false (hs.handshakeKeys (h.highestSpace ▸ hhighest))
  client hside := by
    by_contra hne
    exact h.prevPath_ne_none hne (hs.client (h.side ▸ hside))
  left hcase := by
    apply h.left
    apply hs.left
    exact hcase.imp (fun ⟨hside, hstate⟩ => ⟨h.side ▸ hside, h.state hstate⟩) h.prevPath_ne_none
  counter := by
    have hdata := h.spaces .data
    rw [h.pathCounter, hdata.rxPacket]
    exact hs.counter.imp_right fun ⟨hseen, hle⟩ => ⟨hdata.seen _ hseen, hle⟩

theorem Shape.fresh (hs : Shape c) (h : Sheds c c')
    (hle : (c.spaces id).nextPacketNumber ≤ number) :
    ∀ e ∈ (c'.spaces id).sentPackets.entries, e.1 < number := by
  intro e he
  exact lt_of_lt_of_le ((hs.spaces id).numbers e ((h.spaces id).entries e he)) hle

theorem Shape.setSpace (hs : Shape c) (hspace : SpaceShape c.pathCounter id space)
    (hcounter : id = .data → c.pathCounter = 0 ∨
      space.dedup.Seen space.rxPacket ∧ c.pathCounter ≤ space.rxPacket + 1)
    (hpath : path.generation = c.path.generation) {highest : SpaceId}
    {zeroRtt : Bool} (hhandshake : highest = .initial →
      ((c.setSpace id space).spaces .handshake).crypto = false)
    (hleft : c.side = .server ∧ c.state = .established ∨ c.prevPath ≠ none →
      highest ≠ .initial ∧ ∀ j, j ≠ .data → ((c.setSpace id space).spaces j).crypto = false) :
    Shape { c.setSpace id space with path, highestSpace := highest, zeroRttCrypto := zeroRtt } := by
  refine ⟨setSpace_forall hspace fun j _ => hs.spaces j, hpath ▸ hs.generation, hs.prevGeneration,
    hhandshake, hs.client, hleft, ?_⟩
  refine setSpace_forall (P := fun j s => j = .data → c.pathCounter = 0 ∨
    s.dedup.Seen s.rxPacket ∧ c.pathCounter ≤ s.rxPacket + 1) hcounter ?_ .data rfl
  rintro j - rfl
  exact hs.counter

theorem Shape.keys_setSpace (hs : Shape c) (id : SpaceId) (space : PacketSpace)
    (hcrypto : space.crypto = (c.spaces id).crypto) :
    (c.highestSpace = .initial → ((c.setSpace id space).spaces .handshake).crypto = false) ∧
      (c.side = .server ∧ c.state = .established ∨ c.prevPath ≠ none →
        Left (c.setSpace id space)) := by
  have hsame : ∀ j, ((c.setSpace id space).spaces j).crypto = (c.spaces j).crypto :=
    setSpace_forall (P := fun j s => s.crypto = (c.spaces j).crypto) hcrypto fun _ _ => rfl
  refine ⟨fun hinitial => (hsame .handshake).trans (hs.handshakeKeys hinitial), fun hcase => ?_⟩
  obtain ⟨hhighest, hkeyless⟩ := hs.left hcase
  exact ⟨hhighest, fun j hj => (hsame j).trans (hkeyless j hj)⟩

theorem Sheds.inv (h : Sheds c c') (hi : Inv c) (haccounts : Accounts c' []) : Inv c' := by
  refine ⟨h.shape hi.shape, haccounts, ?_⟩
  intro hne
  rcases hi.tail (h.prevPath_ne_none hne) with hpending | htail
  · exact .inl (h.pending.trans hpending)
  · exact .inr (h.ownTail htail)

theorem Inv.of_settles (hi : Inv c) (h : Settles c [] x) : Safe Inv x :=
  mono h fun _ ⟨hsheds, haccounts⟩ => hsheds.inv hi haccounts

end Shape

section Transmit

variable {c : Connection} {id : SpaceId} {number : Nat} {packet : SentPacket}
  {forgotten : Option SentPacket} {space : PacketSpace}

theorem newPacket_ensures (c : Connection) (id : SpaceId) (random : Nat) (h : Accounts c owed) :
    Safe (fun r => (c.spaces id).nextPacketNumber ≤ r.1 ∧
        r.1 < (r.2.spaces id).nextPacketNumber ∧ Sheds c r.2 ∧ Accounts r.2 owed ∧
        (r.2.spaces id).crypto = (c.spaces id).crypto) (c.newPacket id random) := by
  have hset : ∀ {space : PacketSpace}, (c.spaces id).nextPacketNumber ≤ space.nextPacketNumber →
      space = { c.spaces id with nextPacketNumber := space.nextPacketNumber } →
      (c.spaces id).Sheds space ∧ Accounts (c.setSpace id space) owed ∧
        ((c.setSpace id space).spaces id).nextPacketNumber = space.nextPacketNumber ∧
        ((c.setSpace id space).spaces id).crypto = (c.spaces id).crypto := by
    intro space hle heq
    have hself : (c.setSpace id space).spaces id = space := setSpace_self
    have hvalues : space.sentPackets = (c.spaces id).sentPackets := by rw [heq]
    refine ⟨?_, h.setSpace [] ?_, ?_, ?_⟩
    · rw [heq]
      exact ⟨fun h => h, hle, rfl, fun _ h => h, rfl, fun _ h => h, .inl⟩
    · rw [hvalues]
      exact .refl _
    · rw [hself]
    · rw [hself, heq]
  cases id with
  | initial | handshake =>
    apply (PacketSpace.getTxNumber_ensures _).bind
    rintro ⟨n, space⟩ ⟨hle, hlt, heq⟩
    obtain ⟨hsheds, haccounts, hnext, hcrypto⟩ := hset (le_trans hle (le_of_lt hlt)) heq
    exact .ok ⟨hle, hnext ▸ hlt, sheds_setSpace hsheds, haccounts, hcrypto⟩
  | data =>
    apply (c.packetNumberFilter.allocate_ensures random (c.spaces .data)).bind
    rintro ⟨n, filter, space⟩ ⟨hle, hlt, heq⟩
    obtain ⟨hsheds, haccounts, hnext, hcrypto⟩ := hset (le_trans hle (le_of_lt hlt)) heq
    have hset := sheds_setSpace hsheds
    exact .ok ⟨hle, hnext ▸ hlt, { hset with }, haccounts.congr rfl rfl rfl rfl, hcrypto⟩

theorem SpaceShape.track {n : Nat} {s : PacketSpace} (h : SpaceShape n id s)
    (ht : s.Tracks number packet forgotten space) (hgen : packet.pathGeneration ≤ n)
    (hnext : number < s.nextPacketNumber) (hkeys : id ≠ .data → s.crypto = true) :
    SpaceShape n id space := by
  rw [ht.rest]
  refine ⟨?_, ?_, fun hid hfalse => absurd (hkeys hid) (ne_true_of_eq_false hfalse)⟩
  · intro e he
    rcases ht.entries e he with rfl | hold
    · exact hnext
    · exact h.numbers e hold
  · intro e he
    rcases ht.entries e he with rfl | hold
    · exact hgen
    · exact h.known e hold

theorem Shape.track (hs : Shape c) (ht : (c.spaces id).Tracks number packet forgotten space)
    (hgen : packet.pathGeneration ≤ c.pathCounter)
    (hnext : number < (c.spaces id).nextPacketNumber)
    (hkeys : id ≠ .data → (c.spaces id).crypto = true)
    (hpath : path.generation = c.path.generation) :
    Shape { c.setSpace id space with path } := by
  obtain ⟨hhandshake, hleft⟩ := hs.keys_setSpace id space (by rw [ht.rest])
  refine hs.setSpace ((hs.spaces id).track ht hgen hnext hkeys) ?_ hpath hhandshake hleft
  rintro rfl
  rw [ht.rest]
  exact hs.counter

/-- The packet is counted on the current path; what is forgotten is taken off the same
path, and must not have been sent on the other. -/
theorem Accounts.track (ha : Accounts c [])
    (ht : (c.spaces id).Tracks number packet forgotten space)
    (hgen : packet.pathGeneration = c.path.generation)
    (hother : ∀ f prev, forgotten = some f → c.prevPath = some prev →
      f.pathGeneration ≠ prev.generation)
    (hpath : path.generation = c.path.generation)
    (hcounts : Counts path.inFlight (sentOn c.path.generation (tracked (c.setSpace id space)))) :
    Accounts { c.setSpace id space with path } [] := by
  refine ⟨?_, ?_⟩
  · rw [hpath]
    exact hcounts
  · intro prev hprev
    obtain ⟨hne, hold⟩ := ha.prev prev hprev
    refine ⟨hpath ▸ hne, ?_⟩
    have hperm := (tracked_perm [packet] forgotten.toList ht.values).filter
      (·.pathGeneration = prev.generation)
    have hnew : sentOn prev.generation ([packet] ++ tracked c) =
        sentOn prev.generation (tracked c) :=
      sentOn_cons_of_ne _ (hgen.trans_ne hne.symm)
    have hforgotten : sentOn prev.generation
        (forgotten.toList ++ tracked (c.setSpace id space)) =
        sentOn prev.generation (tracked (c.setSpace id space)) := by
      rcases forgotten with _ | f
      · rfl
      · exact sentOn_cons_of_ne _ (hother f prev rfl hprev)
    change (sentOn _ _).Perm (sentOn _ _) at hperm
    rw [hnew, hforgotten] at hperm
    exact hold.perm hperm

theorem sent_counts (ha : Accounts c []) (hgen : packet.pathGeneration = c.path.generation)
    (hfresh : ∀ e ∈ (c.spaces id).sentPackets.entries, e.1 < number) :
    Safe
      (fun r => r.1.generation = c.path.generation ∧
        r.1.challengePending = c.path.challengePending ∧
        (∃ forgotten, (c.spaces id).Tracks number packet forgotten r.2) ∧
        Counts r.1.inFlight (sentOn c.path.generation (tracked (c.setSpace id r.2))))
      (c.path.sent number packet (c.spaces id)) := by
  apply (PacketSpace.sent_ensures packet hfresh).bind
  rintro ⟨forgotten, space⟩ ht
  have hinserted : Counts (c.path.inFlight.insert packet)
      (sentOn c.path.generation (forgotten.toList ++ tracked (c.setSpace id space))) := by
    have hperm := (tracked_perm [packet] forgotten.toList ht.values).filter
      (·.pathGeneration = c.path.generation)
    apply Counts.perm _ hperm
    change Counts _ (sentOn _ (packet :: tracked c))
    rw [sentOn_cons_of_eq _ hgen]
    exact ha.path.insert packet
  rcases forgotten with _ | f
  · exact .ok ⟨rfl, rfl, ⟨none, ht⟩, hinserted⟩
  · have hpath :=
      @removeInFlight_path _ f { c.path with inFlight := c.path.inFlight.insert packet } hinserted
    apply hpath.bind
    rintro ⟨found, path⟩ ⟨hcounts, hrest, -⟩
    dsimp only at hcounts hrest
    refine .ok ⟨?_, ?_, ⟨some f, ht⟩, hcounts⟩
    · rw [hrest]
    · rw [hrest]

theorem finishAndTrack_ensures (hs : Shape c) (ha : Accounts c []) (now : Instant)
    (hfresh : ∀ e ∈ (c.spaces id).sentPackets.entries, e.1 < number)
    (hnext : number < (c.spaces id).nextPacketNumber)
    (hkeys : id ≠ .data → (c.spaces id).crypto = true) {ackEliciting : Bool}
    (htail : c.prevPath ≠ none → ackEliciting = true ∨ OwnTail c) (padded : Bool) (length : Nat) :
    Safe Inv
      (c.finishAndTrack now id number ackEliciting padded length) := by
  apply (sent_counts ha rfl hfresh).bind
  rintro ⟨path, space⟩ ⟨hgen, -, ⟨forgotten, ht⟩, hcounts⟩
  -- Two paths are known only when packets are sent in the Data space alone.
  have hdata : c.prevPath ≠ none → id = .data := by
    intro hne
    by_contra hid
    exact ne_true_of_eq_false ((hs.left (.inr hne)).2 id hid) (hkeys hid)
  refine .ok ⟨hs.track ht hs.generation hnext hkeys hgen, ha.track ht rfl ?_ hgen hcounts, ?_⟩
  · intro f prev hf hprev
    have hne : c.prevPath ≠ none := by simp [hprev]
    obtain rfl := hdata hne
    obtain ⟨hnot, n, hlt, hmem⟩ := ht.forgotten f hf
    rcases htail hne with hack | hown
    · exact absurd hack (ne_true_of_eq_false hnot)
    · rw [hown (n, f) hmem hlt]
      exact (ha.prev prev hprev).1.symm
  · intro hne
    obtain rfl := hdata hne
    refine .inr ?_
    intro e he hlt
    rw [setSpace_self] at he hlt
    rw [ht.largest] at hlt
    rw [hgen]
    rcases ht.entries e he with rfl | hold
    · rfl
    · by_cases hack : ackEliciting = true
      · rw [if_pos hack] at hlt
        exact absurd (hfresh e hold) (not_lt.mpr (le_of_lt hlt))
      · rw [if_neg hack] at hlt
        exact (htail hne).resolve_left hack e hold hlt

theorem leaveInitial_settles (h : Accounts c owed) (id : SpaceId) :
    Settles c owed (c.leaveInitial id) := by
  rw [leaveInitial]
  split_ifs
  · exact discardSpace_settles h .initial
  · exact settles_ok h

theorem leaveInitial_self (c : Connection) (id : SpaceId) :
    Ensures (fun _ => False) (fun d => d.spaces id = c.spaces id) (c.leaveInitial id) := by
  rw [leaveInitial]
  split_ifs with h
  · have hid : id ≠ .initial := by
      rintro rfl
      simp at h
    exact (discardSpace_others c .initial).mono fun d hd => hd.1 id hid
  · exact .ok rfl

theorem transmitPacket_inv (hi : Inv c) (out : Outgoing) :
    Safe Inv (c.transmitPacket out) := by
  rw [transmitPacket]
  split_ifs with hsend
  · obtain ⟨-, hkeys, -⟩ := hsend
    have hleave := (leaveInitial_settles hi.accounts out.space).and (leaveInitial_self c out.space)
    apply hleave.bind
    rintro d ⟨⟨hd, hda⟩, hself⟩
    apply (newPacket_ensures d out.space out.random hda).bind
    rintro ⟨number, e⟩ ⟨hle, hlt, he, hea, hcrypto⟩
    dsimp only at hle hlt he hea hcrypto ⊢
    have hshape : Shape e := he.shape (hd.shape hi.shape)
    have hfresh := (hd.shape hi.shape).fresh he hle
    have hkeys' : out.space ≠ .data → (e.spaces out.space).crypto = true := by
      intro hne
      rw [hcrypto, hself]
      simpa [hasKeys, hne] using hkeys
    have htail : e.prevPath ≠ none → (out.pending ||
        (out.space = .data && c.canSend1rtt out.data)) = true ∨ OwnTail e := by
      intro hne
      have hprev := hd.prevPath_ne_none (he.prevPath_ne_none hne)
      rcases hi.tail hprev with hpending | hown
      · have hdata : out.space = .data := by
          by_contra hid
          have hfalse := ((he.shape (hd.shape hi.shape)).left (.inr hne)).2 _ hid
          exact ne_true_of_eq_false hfalse (hkeys' hid)
        exact .inl (by simp [hdata, canSend1rtt, hpending])
      · exact .inr (he.ownTail (hd.ownTail hown))
    split_ifs
    · have hsent : Shape { e with path := { e.path with challengePending := false } } :=
        { hshape with }
      exact finishAndTrack_ensures hsent (hea.congr rfl rfl rfl rfl) out.now hfresh hlt hkeys' htail
        out.padded out.length
    · exact finishAndTrack_ensures hshape hea out.now hfresh hlt hkeys' htail out.padded out.length
  · exact .ok hi

theorem mtuProbe_inv (hi : Inv c) (now : Instant) (length random : Nat) :
    Safe Inv (c.mtuProbe now length random) := by
  rw [mtuProbe]
  split_ifs
  · have hd : Sheds c { c with path := { c.path with
        inFlightMtuProbe := some (c.packetNumberFilter.peek (c.spaces .data)) } } :=
      { Sheds.refl c with }
    have hda : Accounts { c with path := { c.path with
        inFlightMtuProbe := some (c.packetNumberFilter.peek (c.spaces .data)) } } [] :=
      hi.accounts.congr rfl rfl rfl rfl
    apply (newPacket_ensures _ .data random hda).bind
    rintro ⟨number, e⟩ ⟨hle, hlt, he, hea, -⟩
    have hshape := hd.shape hi.shape
    exact finishAndTrack_ensures (he.shape hshape) hea now (hshape.fresh he hle) hlt
      (fun hne => absurd rfl hne) (fun _ => .inl rfl) true length
  · exact .ok hi

theorem sendPathChallenge_settles (h : Accounts c owed) (random : Nat) :
    Settles c owed (c.sendPathChallenge random) := by
  rw [sendPathChallenge]
  split
  · exact settles_ok h
  · next prev hprev =>
    split_ifs
    · have hd : Sheds c { c with prevPath := some { prev with challengePending := false } } :=
        { Sheds.refl c with prevPath := by rw [hprev]; rfl }
      have hda : Accounts
          { c with prevPath := some { prev with challengePending := false } } owed :=
        h.congr rfl rfl rfl (by rw [hprev]; rfl)
      apply (newPacket_ensures _ .data random hda).bind
      rintro ⟨_, e⟩ ⟨-, -, he, hea, -⟩
      exact .ok ⟨hd.trans he, hea⟩
    · exact settles_ok h

end Transmit

section Receive

variable {c : Connection}

def Fresh (c : Connection) (number : Nat) : Prop :=
  (c.spaces .data).rxPacket = number → c.pathCounter ≤ number ∧ number + 1 < 2 ^ 64 ∧
    (c.spaces .data).dedup.Seen number

theorem Sheds.fresh (h : Sheds c c') (hf : Fresh c number) : Fresh c' number := by
  intro hrx
  have hdata := h.spaces .data
  obtain ⟨hle, hlt, hseen⟩ := hf (hdata.rxPacket.symm.trans hrx)
  exact ⟨h.pathCounter ▸ hle, hlt, hdata.seen _ hseen⟩

theorem migrate_inv (hi : Inv c) (hleft : Left c) (hside : c.side = .server) (hf : Fresh c p.number)
    (hrx : p.number = (c.spaces .data).rxPacket) : Inv (c.migrate p) := by
  obtain ⟨hle, _, hseen⟩ := hf hrx.symm
  have hcounter : (c.pathCounter + 1) % 2 ^ 64 = c.pathCounter + 1 := Nat.mod_eq_of_lt (by omega)
  have hold : ∀ e ∈ tracked c, e.pathGeneration ≤ c.pathCounter := by
    intro e he
    obtain ⟨id, -, hid⟩ := mem_flatMap.mp he
    obtain ⟨entry, hentry, rfl⟩ := mem_map.mp hid
    exact (hi.shape.spaces id).known entry hentry
  have hnone : sentOn (c.pathCounter + 1) (tracked c) = [] := by
    apply filter_eq_nil_iff.mpr
    intro e he
    have hgen := hold e he
    simp only [decide_eq_true_eq]
    omega
  have hgeneration : (c.migrate p).path.generation = c.pathCounter + 1 := by
    rw [← hcounter, migrate]
    split_ifs <;> rfl
  have hflight : (c.migrate p).path.inFlight = .new := by
    rw [migrate]
    split_ifs <;> rfl
  have hprev : ∀ prev, (c.migrate p).prevPath = some prev → prev.generation ≤ c.pathCounter ∧
        Counts prev.inFlight (sentOn prev.generation (tracked c)) := by
    intro prev hsome
    rw [migrate] at hsome
    dsimp only at hsome
    split_ifs at hsome
    · cases hsome
      exact ⟨hi.shape.generation, hi.accounts.path⟩
    · exact ⟨hi.shape.prevGeneration prev hsome, (hi.accounts.prev prev hsome).2⟩
  have hpathCounter : (c.migrate p).pathCounter = c.pathCounter + 1 := hcounter
  refine ⟨⟨?_, ?_, ?_, hi.shape.handshakeKeys, ?_, fun _ => hleft, ?_⟩, ⟨?_, ?_⟩, fun _ => .inl rfl⟩
  · intro id
    rw [hpathCounter]
    exact { hi.shape.spaces id with
      known := fun e he => Nat.le_succ_of_le ((hi.shape.spaces id).known e he) }
  · rw [hgeneration, hpathCounter]
  · intro prev hsome
    rw [hpathCounter]
    exact Nat.le_succ_of_le (hprev prev hsome).1
  · intro hclient
    exact absurd (hclient.symm.trans hside) (by decide)
  · rw [hpathCounter]
    change _ ∨ (c.spaces .data).dedup.Seen (c.spaces .data).rxPacket ∧
      c.pathCounter + 1 ≤ (c.spaces .data).rxPacket + 1
    rw [← hrx]
    exact .inr ⟨hseen, Nat.succ_le_succ hle⟩
  · rw [hgeneration, hflight]
    change Counts _ (sentOn _ (tracked c))
    rw [hnone]
    exact counts_new
  · intro prev hsome
    obtain ⟨_, hcounts⟩ := hprev prev hsome
    exact ⟨by omega, hcounts⟩

theorem processPayload_inv (hi : Inv c)
    (hmigrates : p.otherRemote = true → Left c ∧ c.side = .server) (hf : Fresh c p.number) :
    Safe Inv (c.processPayload p) := by
  apply bind (processFrames_settles hi.accounts p p.frames)
  rintro ⟨d, ok⟩ ⟨hd, hda⟩
  have hclosed : Sheds d { d with state := .closed } ∧ Accounts { d with state := .closed } [] :=
    close_settles hda
  obtain ⟨e, heq, he, hea⟩ :
      ∃ e, e = (if .close ∈ p.frames then { d with state := .closed } else d) ∧
      Sheds c e ∧ Accounts e [] := by
    refine ⟨_, rfl, ?_⟩
    split_ifs
    · exact ⟨hd.trans hclosed.1, hclosed.2⟩
    · exact ⟨hd, hda⟩
  simp only [← heq]
  split_ifs with hok hcase
  · obtain ⟨hleft, hside⟩ := hmigrates hcase.1
    exact .ok (migrate_inv (he.inv hi hea) (he.left hleft) (he.side.trans hside)
      (he.fresh hf) hcase.2.2)
  · exact .ok (he.inv hi hea)
  · exact .ok ((hd.trans hclosed.1).inv hi hclosed.2)

def Ready (c : Connection) : Prop :=
  c.highestSpace ≠ .initial ∧ (c.side = .server → (c.spaces .initial).crypto = false)

theorem Sheds.ready (h : Sheds c c') (hr : Ready c) : Ready c' := by
  refine ⟨h.highestSpace ▸ hr.1, ?_⟩
  intro hside
  exact (h.spaces .initial).crypto_eq_false (hr.2 (h.side ▸ hside))

theorem Inv.setSpace (hi : Inv c) (id : SpaceId) (space : PacketSpace)
    (hpackets : space.sentPackets = (c.spaces id).sentPackets)
    (hnext : space.nextPacketNumber = (c.spaces id).nextPacketNumber)
    (hlargest : id = .data → space.largestAckElicitingSent = (c.spaces id).largestAckElicitingSent)
    (hkeys : space.crypto = false → (c.spaces id).crypto = false)
    (hcounter : id = .data → c.pathCounter = 0 ∨
      space.dedup.Seen space.rxPacket ∧ c.pathCounter ≤ space.rxPacket + 1)
    (highest : SpaceId) (zeroRtt : Bool)
    (hhandshake : highest = .initial → ((c.setSpace id space).spaces .handshake).crypto = false)
    (hleft : c.side = .server ∧ c.state = .established ∨ c.prevPath ≠ none → Left c →
      highest ≠ .initial ∧ ∀ j, j ≠ .data → ((c.setSpace id space).spaces j).crypto = false) :
    Inv { c.setSpace id space with highestSpace := highest, zeroRttCrypto := zeroRtt } := by
  have hself : SpaceShape c.pathCounter id space := by
    obtain ⟨_, _, hkeyless⟩ := hi.shape.spaces id
    exact ⟨by rwa [hpackets, hnext], by rwa [hpackets],
      fun hid hcrypto => by rw [hpackets, hkeyless hid (hkeys hcrypto)]⟩
  have htail : ∀ j, j = .data →
      ((c.setSpace id space).spaces j).sentPackets = (c.spaces j).sentPackets ∧
      ((c.setSpace id space).spaces j).largestAckElicitingSent =
        (c.spaces j).largestAckElicitingSent :=
    setSpace_forall (P := fun j s => j = .data → s.sentPackets = (c.spaces j).sentPackets ∧
      s.largestAckElicitingSent = (c.spaces j).largestAckElicitingSent)
      (fun hid => ⟨hpackets, hlargest hid⟩) fun _ _ _ => ⟨rfl, rfl⟩
  refine ⟨hi.shape.setSpace hself hcounter rfl hhandshake
    fun hcase => hleft hcase (hi.shape.left hcase), ?_, ?_⟩
  · have hvalues : (c.spaces id).sentPackets.values.Perm ([] ++ space.sentPackets.values) := by
      rw [hpackets]
      exact .refl _
    exact (hi.accounts.setSpace [] hvalues).congr rfl rfl rfl rfl
  · intro hne
    apply (hi.tail hne).imp_right
    intro hown e he hlt
    obtain ⟨hsame, hsent⟩ := htail .data rfl
    rw [hsame] at he
    rw [hsent] at hlt
    exact hown e he hlt

theorem Inv.receive (hi : Inv c) (id : SpaceId) (rxPacket : Nat) (dedup : Dedup)
    (hcounter : id = .data → c.pathCounter = 0 ∨
      dedup.Seen rxPacket ∧ c.pathCounter ≤ rxPacket + 1) :
    Inv (c.setSpace id { c.spaces id with rxPacket, dedup }) := by
  obtain ⟨hhandshake, hleft⟩ :=
    hi.shape.keys_setSpace id { c.spaces id with rxPacket, dedup } rfl
  exact hi.setSpace id { c.spaces id with rxPacket, dedup } rfl rfl (fun _ => rfl) (fun h => h)
    hcounter c.highestSpace c.zeroRttCrypto hhandshake fun hcase _ => hleft hcase

theorem upgradeCrypto_inv (hi : Inv c) :
    Safe (fun d => Inv d ∧ (Ready c → Ready d)) c.upgradeCrypto := by
  rw [upgradeCrypto]
  split
  · next hhighest =>
    refine .ok ⟨?_, fun hready => absurd hhighest hready.1⟩
    refine hi.setSpace .handshake { c.spaces .handshake with crypto := true } rfl rfl
      (fun _ => rfl) nofun nofun .handshake c.zeroRttCrypto nofun ?_
    intro _ hleft
    exact absurd hhighest hleft.1
  · refine .ok ⟨?_, fun hready => ⟨nofun, hready.2⟩⟩
    refine hi.setSpace .data { c.spaces .data with crypto := true } rfl rfl
      (fun _ => rfl) nofun (fun _ => hi.shape.counter) .data _ nofun ?_
    intro _ hleft
    refine ⟨nofun, ?_⟩
    intro j hj
    rw [setSpace_of_ne hj]
    exact hleft.2 j hj
  · exact not_isUnderflow_panic

theorem writeCrypto_inv (hi : Inv c) (secrets : Nat) :
    Safe (fun d => Inv d ∧ (Ready c → Ready d)) (c.writeCrypto secrets) := by
  induction secrets generalizing c with
  | zero => exact .ok ⟨hi, id⟩
  | succ _ ih =>
    apply (upgradeCrypto_inv hi).bind
    rintro d ⟨hd, hready⟩
    exact (ih hd).mono fun e ⟨he, hready'⟩ => ⟨he, fun h => hready' (hready h)⟩

theorem processEarlyPayload_inv (hi : Inv c) (p : Incoming) :
    Safe (fun r => Inv r.1 ∧ (Ready c → Ready r.1))
      (c.processEarlyPayload p) := by
  apply bind (processEarlyFrames_settles hi.accounts p p.frames)
  rintro ⟨d, result⟩ ⟨hd, hda⟩
  rcases result with _ | ok
  · exact .ok ⟨hd.inv hi hda, hd.ready⟩
  · rcases ok with _ | _
    · obtain ⟨hclosed, hca⟩ : Sheds d { d with state := .closed } ∧
        Accounts { d with state := .closed } [] := close_settles hda
      exact .ok ⟨(hd.trans hclosed).inv hi hca, (hd.trans hclosed).ready⟩
    · apply (writeCrypto_inv (hd.inv hi hda) p.secrets).bind
      rintro e ⟨he, hready⟩
      exact .ok ⟨he, fun h => hready (hd.ready h)⟩

theorem onPacketAuthenticated_ensures (hi : Inv c) (hseen : (c.spaces id).dedup.Seen number)
    (hlt : number + 1 < 2 ^ 64)
    (hnew : id = .data → (c.spaces id).rxPacket ≤ number → c.pathCounter ≤ number) :
    Safe (fun d => Inv d ∧ d.state = c.state ∧ d.side = c.side ∧
        (id = .handshake → c.highestSpace ≠ .initial → Ready d) ∧ (id = .data → Fresh d number))
      (c.onPacketAuthenticated id number) := by
  have hfirst : Safe
      (fun e => (Sheds c e ∧ Accounts e []) ∧ (∀ j, j ≠ .initial → e.spaces j = c.spaces j) ∧
        e.state = c.state ∧
        (id = .handshake → c.side = .server → (e.spaces .initial).crypto = false))
      (c.serverLeaveInitial id) := by
    rw [serverLeaveInitial]
    split_ifs with hcase
    · refine ((discardSpace_ensures hi.accounts .initial).and (discardSpace_others c .initial)).mono
        ?_
      rintro e ⟨⟨hsheds, haccounts, hcrypto, -⟩, hothers, hstate⟩
      exact ⟨⟨hsheds, haccounts⟩, hothers, hstate, fun _ _ => hcrypto⟩
    · refine .ok ⟨⟨.refl c, hi.accounts⟩, fun _ _ => rfl, rfl, ?_⟩
      intro hid hside
      apply eq_false_of_ne_true
      intro hcrypto
      exact hcase ⟨hside, hcrypto, hid⟩
  apply hfirst.bind
  rintro e ⟨⟨hsheds, haccounts⟩, hothers, hstate, hinitial⟩
  have he : Inv e := hsheds.inv hi haccounts
  have hready : id = .handshake → c.highestSpace ≠ .initial → Ready e := by
    intro hid hhighest
    exact ⟨hsheds.highestSpace ▸ hhighest, fun hside => hinitial hid (hsheds.side ▸ hside)⟩
  by_cases hrx : (e.spaces id).rxPacket ≤ number
  · have hcount : id = .data → e.pathCounter ≤ number := by
      rintro rfl
      rw [hothers .data nofun] at hrx
      exact hsheds.pathCounter ▸ hnew rfl hrx
    have hseen' : (e.spaces id).dedup.Seen number := (hsheds.spaces id).seen number hseen
    rw [if_pos hrx]
    refine .ok ⟨?_, hstate, hsheds.side, ?_, ?_⟩
    · exact he.receive id number _ fun hid => .inr ⟨hseen', Nat.le_succ_of_le (hcount hid)⟩
    · rintro rfl hhighest
      obtain ⟨hhighest', hcrypto⟩ := hready rfl hhighest
      refine ⟨hhighest', ?_⟩
      intro hside
      exact hcrypto hside
    · rintro rfl -
      refine ⟨hcount rfl, hlt, ?_⟩
      exact hseen'
  · rw [if_neg hrx]
    refine .ok ⟨he, hstate, hsheds.side, hready, ?_⟩
    rintro rfl heq
    exact absurd (le_of_eq heq) hrx

theorem establish_inv (hi : Inv c) (hready : Ready c) (p : Incoming) :
    Safe Inv (c.establish p) := by
  have hset : ∀ d, Inv d → (d.side = .server → Left d) → Inv { d with state := .established } := by
    intro d hd hleft
    refine ⟨{ hd.shape with left := ?_ }, hd.accounts.congr rfl rfl rfl rfl, hd.tail⟩
    rintro (⟨hside, -⟩ | hprev)
    · exact hleft hside
    · exact hd.shape.left (.inr hprev)
  have hend : Safe
      (fun d => (Sheds c d ∧ Accounts d []) ∧
        (d.side = .server → (d.spaces .handshake).crypto = false))
      (c.endHandshake p) := by
    rw [endHandshake]
    rcases hside : c.side with _ | _
    · have hclient : Settles c [] (if p.zeroRttRejected then c.abandonAll .data else .ok c) := by
        split_ifs
        · exact abandonAll_settles hi.accounts .data
        · exact settles_ok hi.accounts
      apply mono hclient
      rintro d ⟨hsheds, haccounts⟩
      refine ⟨⟨hsheds, haccounts⟩, ?_⟩
      intro hserver
      exact absurd (hserver.symm.trans (hsheds.side.trans hside)) (by decide)
    · apply (discardSpace_ensures hi.accounts .handshake).mono
      rintro d ⟨hsheds, haccounts, hcrypto, -⟩
      exact ⟨⟨hsheds, haccounts⟩, fun _ => hcrypto⟩
  apply hend.bind
  · rintro d ⟨⟨hsheds, haccounts⟩, hcrypto⟩
    refine .ok (hset d (hsheds.inv hi haccounts) ?_)
    intro hserver
    obtain ⟨hhighest, hinitial⟩ := hsheds.ready hready
    refine ⟨hhighest, ?_⟩
    intro id hid
    rcases id with _ | _ | _
    · exact hinitial hserver
    · exact hcrypto hserver
    · exact absurd rfl hid

theorem processDecryptedPacket_inv (hi : Inv c)
    (hremote : p.otherRemote = true → c.state ≠ .handshake ∧ c.side = .server)
    (hready : c.state ≠ .closed → p.kind.space = .handshake → Ready c)
    (hfresh : c.state ≠ .closed → p.kind.space = .data → Fresh c p.number) :
    Safe Inv (c.processDecryptedPacket p) := by
  rw [processDecryptedPacket]
  split
  · exact .ok hi
  · next hstate =>
    split_ifs with hdata
    · apply processPayload_inv hi _ (hfresh (by rw [hstate]; rintro ⟨⟩) hdata)
      intro hother
      obtain ⟨-, hside⟩ := hremote hother
      exact ⟨hi.shape.left (.inl ⟨hside, hstate⟩), hside⟩
    · apply (processEarlyPayload_inv hi p).bind
      rintro ⟨d, _⟩ ⟨hd, -⟩
      exact .ok hd
  · split_ifs
    · exact .ok hi
    · apply (processEarlyPayload_inv hi p).bind
      rintro ⟨d, ok⟩ ⟨hd, -⟩
      refine .ok ?_
      split_ifs
      · exact ⟨{ hd.shape with }, hd.accounts.congr rfl rfl rfl rfl, hd.tail⟩
      · exact hd
  · next hstate hkind =>
    split_ifs
    · exact .ok hi
    · apply (processEarlyPayload_inv hi p).bind
      rintro ⟨d, _⟩ ⟨hd, hdready⟩
      dsimp only at hd hdready ⊢
      split_ifs
      · exact .ok hd
      · exact establish_inv hd
          (hdready (hready (by rw [hstate]; rintro ⟨⟩) (by rw [hkind]; rfl))) p
  · next hstate hkind =>
    apply processPayload_inv hi _ (hfresh (by rw [hstate]; rintro ⟨⟩) (by rw [hkind]; rfl))
    intro hother
    exact absurd hstate (hremote hother).1
  · exact .ok hi

theorem handlePacket_inv (hi : Inv c) (p : Incoming) :
    Safe Inv (c.handlePacket p) := by
  rw [handlePacket]
  by_cases hremote : p.otherRemote ∧ (c.state = .handshake ∨ ¬ (c.side = .server ∧ c.migration))
  · rw [if_pos hremote]
    exact .ok hi
  rw [if_neg hremote]
  by_cases hkeys : (c.spaces p.kind.space).crypto ∨ p.kind = .zeroRtt ∧ c.zeroRttCrypto
  swap
  · rw [if_pos hkeys]
    exact .ok hi
  rw [if_neg (not_not.mpr hkeys)]
  apply ((c.spaces p.kind.space).dedup.insert_ensures p.number).bind
  rintro ⟨duplicate, dedup⟩ ⟨hseen, hkept, hnew⟩
  dsimp only at hseen hkept hnew ⊢
  obtain ⟨d, hd⟩ : ∃ d, d = c.setSpace p.kind.space { c.spaces p.kind.space with dedup } :=
    ⟨_, rfl⟩
  have hself : d.spaces p.kind.space = { c.spaces p.kind.space with dedup } := by
    rw [hd]
    exact setSpace_self
  have hrest : d.state = c.state ∧ d.side = c.side ∧ d.highestSpace = c.highestSpace ∧
      d.pathCounter = c.pathCounter := by
    rw [hd]
    exact ⟨rfl, rfl, rfl, rfl⟩
  have hdi : Inv d := by
    rw [hd]
    refine hi.receive _ _ dedup ?_
    intro hdata
    have hold := hi.shape.counter
    rw [← hdata] at hold
    exact hold.imp_right fun ⟨hrx, hle⟩ => ⟨hkept _ hrx, hle⟩
  rw [← hd]
  split_ifs with hdrop
  · exact .ok hdi
  · have hfalse : duplicate = false := eq_false_of_ne_true fun hdup => hdrop (.inl hdup)
    have hcount : p.kind.space = .data → (d.spaces p.kind.space).rxPacket ≤ p.number →
        d.pathCounter ≤ p.number := by
      intro hdata hle
      rw [hself] at hle
      rw [hdata] at hnew hle
      change (c.spaces .data).rxPacket ≤ p.number at hle
      rcases hi.shape.counter with _ | ⟨hrx, hbound⟩
      · omega
      · have hne : (c.spaces .data).rxPacket ≠ p.number := fun heq => hnew hfalse (heq ▸ hrx)
        omega
    have hhighest : p.kind.space = .handshake → d.highestSpace ≠ .initial := by
      intro hspace hinitial
      rw [hrest.2.2.1] at hinitial
      rcases hkeys with hcrypto | ⟨hkind, -⟩
      · rw [hspace] at hcrypto
        exact ne_true_of_eq_false (hi.shape.handshakeKeys hinitial) hcrypto
      · rw [hkind] at hspace
        cases hspace
    have hseen' : (d.spaces p.kind.space).dedup.Seen p.number := by
      rw [hself]
      exact hseen
    have hbound : p.number + 1 < 2 ^ 64 := lt_of_le_of_lt hseen.1 dedup.next_lt
    have hremote' : p.otherRemote = true → d.state ≠ .handshake ∧ d.side = .server := by
      intro hother
      rw [hrest.1, hrest.2.1]
      constructor
      · exact fun hhandshake => hremote ⟨hother, .inl hhandshake⟩
      · by_contra hclient
        exact hremote ⟨hother, .inr fun hserver => hclient hserver.1⟩
    rw [authenticate]
    by_cases hclosed : d.state = .closed
    · rw [if_pos hclosed]
      exact processDecryptedPacket_inv hdi hremote' (absurd hclosed) (absurd hclosed)
    · rw [if_neg hclosed]
      apply (onPacketAuthenticated_ensures hdi hseen' hbound hcount).bind
      rintro e ⟨he, hstate, hside, hready, hfresh⟩
      refine processDecryptedPacket_inv he ?_ (fun _ hid => hready hid (hhighest hid))
        fun _ => hfresh
      rw [hstate, hside]
      exact hremote'

end Receive

section Runs

variable {c : Connection}

theorem retry_inv (hi : Inv c) : Safe Inv c.retry := by
  rw [retry]
  split_ifs with hcase
  · obtain ⟨hclient, -⟩ := hcase
    apply bind (ackPacket_settles hi.accounts .initial 0)
    rintro d ⟨hd, hda⟩
    apply (discardSpace_ensures hda .initial).bind
    rintro e ⟨he, hea, hcrypto, hempty⟩
    have hei : Inv e := (hd.trans he).inv hi hea
    have hclient' : e.side = .client := (hd.trans he).side.trans hclient
    have hnone : e.prevPath = none := hei.shape.client hclient'
    have hreset : Inv (e.setSpace .initial { PacketSpace.new with
        crypto := true
        nextPacketNumber := (e.spaces .initial).nextPacketNumber }) := by
      refine hei.setSpace .initial { PacketSpace.new with
        crypto := true
        nextPacketNumber := (e.spaces .initial).nextPacketNumber }
          (SortedMap.eq_empty_of_entries hempty).symm rfl
        nofun nofun nofun e.highestSpace e.zeroRttCrypto ?_ ?_
      · intro hinitial
        exact hei.shape.handshakeKeys hinitial
      · rintro (⟨hserver, -⟩ | hne)
        · exact absurd (hserver.symm.trans hclient') (by decide)
        · exact absurd hnone hne
    exact hreset.of_settles (abandonAll_settles hreset.accounts .data)
  · exact .ok hi

theorem pathValidationTimeout_inv (hi : Inv c) : Inv c.pathValidationTimeout := by
  have hpath : (c.prevPath.getD c.path).generation ≤ c.pathCounter ∧
      Counts (c.prevPath.getD c.path).inFlight
        (sentOn (c.prevPath.getD c.path).generation (tracked c)) := by
    rcases hprev : c.prevPath with _ | prev
    · exact ⟨hi.shape.generation, hi.accounts.path⟩
    · exact ⟨hi.shape.prevGeneration prev hprev, (hi.accounts.prev prev hprev).2⟩
  refine ⟨{ hi.shape with
    generation := hpath.1, prevGeneration := ?_, client := fun _ => rfl, left := ?_ },
    ⟨hpath.2, ?_⟩, ?_⟩
  · rintro prev ⟨⟩
  · rintro (hserver | hne)
    · exact hi.shape.left (.inl hserver)
    · exact absurd rfl hne
  · rintro prev ⟨⟩
  · exact fun hne => absurd rfl hne

theorem handle_inv (hi : Inv c) (event : Event) :
    Safe Inv (c.handle event) := by
  cases event with
  | transmit out => exact transmitPacket_inv hi out
  | closePacket space random =>
    rw [handle, closePacket]
    split_ifs
    · apply bind (leaveInitial_settles hi.accounts space)
      rintro d ⟨hd, hda⟩
      apply (newPacket_ensures d space random hda).bind
      rintro ⟨_, e⟩ ⟨-, -, he, hea, -⟩
      exact .ok ((hd.trans he).inv hi hea)
    · exact .ok hi
  | mtuProbe now length random => exact mtuProbe_inv hi now length random
  | pathChallenge random => exact hi.of_settles (sendPathChallenge_settles hi.accounts random)
  | packet p => exact handlePacket_inv hi p
  | retry => exact retry_inv hi
  | lossDetection now space lossDelay blackHole =>
    exact hi.of_settles (detectLostPackets_settles hi.accounts now space lossDelay blackHole)
  | pathValidation => exact .ok (pathValidationTimeout_inv hi)
  | keyDiscard =>
    exact .ok ⟨{ hi.shape with }, hi.accounts.congr rfl rfl rfl rfl, hi.tail⟩
  | pathChanged => exact hi.of_settles (clearProbe_settles hi.accounts)
  | close => exact hi.of_settles (close_settles hi.accounts)

theorem inv_new (side : Side) (migration : Bool) (packetThreshold : Nat) (zeroRttCrypto : Bool)
    (filter : PacketNumberFilter) :
    Inv (.new side migration packetThreshold zeroRttCrypto filter) := by
  have hempty : ∀ id, ((new side migration packetThreshold zeroRttCrypto
      filter).spaces id).sentPackets = .empty := by
    intro id
    cases id <;> rfl
  refine ⟨⟨?_, le_rfl, ?_, fun _ => rfl, fun _ => rfl, ?_, .inl rfl⟩, ⟨?_, ?_⟩, ?_⟩
  · intro id
    refine ⟨?_, ?_, fun _ _ => by rw [hempty]; rfl⟩ <;>
    · intro e he
      rw [hempty] at he
      cases he
  · rintro prev ⟨⟩
  · rintro (⟨-, ⟨⟩⟩ | hne)
    exact absurd rfl hne
  · exact counts_new
  · rintro prev ⟨⟩
  · exact fun hne => absurd rfl hne

theorem inv_of_reachable (h : system.Reachable c) : Inv c := by
  refine System.Reachable.invariant ?_ ?_ h
  · rintro c ⟨side, migration, packetThreshold, zeroRttCrypto, filter, rfl⟩
    exact inv_new side migration packetThreshold zeroRttCrypto filter
  · intro c event c' hi hstep
    have hensures := handle_inv hi event
    change (c.handle event).toOption = some c' at hstep
    rcases hresult : c.handle event with _ | d
    · rw [hresult] at hstep
      cases hstep
    · rw [hresult] at hstep hensures
      cases hstep
      exact hensures

def packetsOf (c : Connection) (path : PathData) : List SentPacket :=
  sentOn path.generation (tracked c)

/-- In every run, what each path has in flight is what is tracked of it; no counter goes
below zero, and a path without tracked packets has nothing in flight. -/
theorem in_flight_accounted (h : system.Reachable c) (path : PathData)
    (hpath : path = c.path ∨ c.prevPath = some path) :
    path.inFlight.bytes = ((packetsOf c path).map (·.size)).sum ∧
      path.inFlight.ackEliciting = (packetsOf c path).countP (·.ackEliciting) ∧
      (packetsOf c path = [] → path.inFlight.bytes = 0 ∧ path.inFlight.ackEliciting = 0) ∧
      ∀ event, c.handle event ≠ .error .underflow := by
  have hi := inv_of_reachable h
  have hcounts : Counts path.inFlight (packetsOf c path) := by
    rcases hpath with rfl | hprev
    · exact hi.accounts.path
    · exact (hi.accounts.prev path hprev).2
  refine ⟨hcounts.bytes, hcounts.ackEliciting, ?_, fun event => (handle_inv hi event).ne_error rfl⟩
  intro hnone
  obtain ⟨hbytes, hack⟩ := hcounts
  rw [hnone] at hbytes hack
  exact ⟨hbytes, hack⟩

def received (kind : PacketKind) (number secrets : Nat) (complete otherRemote : Bool) : Event :=
  .packet
    { now := 0, kind, number, frames := [.other false], otherRemote, sameIp := false,
      tokens := (1, 2),
      badToken := false, mismatched := false, secrets, complete, zeroRttRejected := false,
      earlyCrypto := false }

def sends (space : SpaceId) : Event :=
  .transmit
    { now := 0, space, acks := true, pending := true, data := false, offPath := false, room := true,
      padded := true, length := 1200, random := 100 }

/-- A server completes its handshake and sends twice, the client migrates, and the server
sends on the new path. -/
def migrating : List Event :=
  [received .initial 0 2 false false, sends .handshake, received .handshake 0 0 true false,
    sends .data, sends .data, received .short 0 0 false true, sends .data]

/-- Both paths have packets in flight. -/
theorem migrating_accounted : ∃ c prev, system.Reachable c ∧ c.prevPath = some prev ∧
      c.path.inFlight.bytes = 1200 ∧ prev.inFlight.bytes = 2400 ∧
      ((packetsOf c c.path).map (·.size)).sum = 1200 ∧
      ((packetsOf c prev).map (·.size)).sum = 2400 := by
  have hinitial : system.Reachable (.new .server true 3 false ⟨50, none, 6⟩) :=
    .initial ⟨_, _, _, _, _, rfl⟩
  obtain ⟨c, prev, hreach, hprev, hbytes, hold⟩ := hinitial.exists₂_of_run migrating
    (P := fun c prev => c.prevPath = some prev ∧ c.path.inFlight.bytes = 1200 ∧
      prev.inFlight.bytes = 2400) ⟨_, _, rfl, rfl, rfl, rfl⟩
  have hpath := (in_flight_accounted hreach c.path (.inl rfl)).1
  have hother := (in_flight_accounted hreach prev (.inr hprev)).1
  exact ⟨c, prev, hreach, hprev, hbytes, hold, hpath.symm.trans hbytes, hother.symm.trans hold⟩

/-- What is tracked is known to the connection. -/
theorem tracked_consistent (h : system.Reachable c) :
    (∀ id, ∀ e ∈ (c.spaces id).sentPackets.entries,
      e.1 < (c.spaces id).nextPacketNumber ∧ e.2.pathGeneration ≤ c.pathCounter) ∧
    (∀ id, id ≠ .data → (c.spaces id).crypto = false → (c.spaces id).sentPackets.entries = []) ∧
    ∀ prev, c.prevPath = some prev → prev.generation ≠ c.path.generation ∧ c.side ≠ .client ∧
      Left c ∧ (c.path.challengePending = true ∨ OwnTail c) := by
  obtain ⟨hshape, haccounts, htail⟩ := inv_of_reachable h
  refine ⟨fun id e he => ?_, fun id => (hshape.spaces id).keyless, fun prev hprev => ?_⟩
  · exact ⟨(hshape.spaces id).numbers e he, (hshape.spaces id).known e he⟩
  · have hkept : c.prevPath ≠ none := by simp [hprev]
    exact ⟨(haccounts.prev prev hprev).1, fun hside => hkept (hshape.client hside),
      hshape.left (.inr hkept), htail hkept⟩

theorem migrating_consistent : ∃ c prev, system.Reachable c ∧ c.prevPath = some prev ∧
    prev.generation ≠ c.path.generation ∧ Left c := by
  have hinitial : system.Reachable (.new .server true 3 false ⟨50, none, 6⟩) :=
    .initial ⟨_, _, _, _, _, rfl⟩
  obtain ⟨c, prev, hreach, hprev⟩ := hinitial.exists₂_of_run migrating
    (P := fun c prev => c.prevPath = some prev) ⟨_, _, rfl, rfl⟩
  obtain ⟨hne, -, hleft, -⟩ := (tracked_consistent hreach).2.2 prev hprev
  exact ⟨c, prev, hreach, hprev, hne, hleft⟩

end Runs

end Quac.FlightAccounts
