import Quac.StreamLimits
import Quac.StreamQueue

/-!
Limits that two sides offer each other.  No side gets a frame from the other that its
own limits refuse, unless a stream is used before its initiator has opened it, or is
reset twice.
-/

namespace Quac.LimitSoundness

open CallAccounts FrameAccounts Identifiers Lib.Registry Lib.Tallies Lib.Transition PartySteps
open Function
open ReceiveLedger RecvHalf StreamAccess StreamAccounts StreamDelivery StreamHalves
open StreamLimits StreamLink StreamParty StreamQueue StreamTransmit Streams TransmitAccounts List

variable {frames : List StreamsFrame} {m : Move} {logs : Side → Log} {ledgers : Side → Ledger}
  {granted : Side → StreamId → Nat} {side : Side} {id : StreamId} {recv : Recv}

def Opened (l : Side → State) (id : StreamId) : Prop :=
  id.index < (l id.initiator).party.streams.next id.dir

def touched : Call → Option StreamId
  | .write id _ | .finish id | .reset id _ | .read id _ => some id
  | _ => none

/-- No limit that was advertised reaches `2 ^ 60`. -/
structure Bounded (s : State) : Prop where
  maxData : s.party.streams.sentMaxData < 2 ^ 60
  streams : ∀ dir, s.party.streams.sentMaxRemote dir < 2 ^ 60
  streamData : ∀ id recv, s.party.streams.getRecv id = some recv → recv.sentMaxStreamData < 2 ^ 60

/-- The condition: streams of the peer are only used after the peer has opened them, and a
RESET_STREAM frame for a stream that was reset before arrives only if all data below the
final size had arrived before that reset. -/
def Orderly (l : Side → State) : Side × Move → Prop
  | (side, .call c) => ∀ id, touched c = some id → id.initiator = side.peer → Opened l id
  | (side, .receive _ (.resetStream id _ finalOffset)) =>
    ∀ recv, (l side).party.streams.getRecv id = some recv → recv.isReceiving = false →
      recv.stop = finalOffset
  | _ => True

def Allowed (l : Side → State) (move : Side × Move) : Prop :=
  (∀ side, Bounded (l side)) ∧ Orderly l move

variable {frame : StreamsFrame}

section Advances

structure Advances (a a' : Accounts) : Prop where
  side : a'.side = a.side
  next : ∀ dir, a.next dir ≤ a'.next dir

variable {a a' a'' : Accounts} {q q' : Retransmits}

theorem Advances.refl (a : Accounts) : Advances a a :=
  ⟨rfl, fun _ => le_rfl⟩

theorem Advances.trans (h : Advances a a') (h' : Advances a' a'') : Advances a a'' :=
  ⟨h'.side.trans h.side, fun dir => (h.next dir).trans (h'.next dir)⟩

structure Quiet (a a' : Accounts) : Prop extends Advances a a' where
  maxData : a'.sentMaxData = a.sentMaxData
  streams : a'.sentMaxRemote = a.sentMaxRemote

theorem Quiet.refl (a : Accounts) : Quiet a a :=
  ⟨.refl a, rfl, rfl⟩

theorem Quiet.trans (h : Quiet a a') (h' : Quiet a' a'') : Quiet a a'' :=
  ⟨h.toAdvances.trans h'.toAdvances, h'.maxData.trans h.maxData, h'.streams.trans h.streams⟩

theorem quiet_credit (a : Accounts) (n : Nat) : Quiet a (a.credit n) := by
  unfold Accounts.credit
  split_ifs <;> exact ⟨⟨rfl, fun _ => le_rfl⟩, rfl, rfl⟩

theorem quiet_announce (a : Accounts) (id : StreamId) : Quiet a (a.announce id) := by
  unfold Accounts.announce
  split_ifs <;> exact ⟨⟨rfl, fun _ => le_rfl⟩, rfl, rfl⟩

theorem quiet_settle (a : Accounts) (recv : Recv) (finalOffset : Nat) :
    Quiet a (settle a recv finalOffset) := by
  unfold settle
  split_ifs
  · refine Quiet.trans ?_ (quiet_credit _ _)
    exact ⟨⟨rfl, fun _ => le_rfl⟩, rfl, rfl⟩
  · exact .refl a

theorem Called.quiet {c : Call} {r : Reply} (h : Called a q c r a' q') : Quiet a a' := by
  cases h with
  | opened dir => exact ⟨⟨rfl, Accounts.le_update_add a.next dir 1⟩, rfl, rfl⟩
  | read | readUp | stopped | stoppedUp =>
    refine Quiet.trans ?_ (quiet_credit _ _)
    exact ⟨⟨rfl, fun _ => le_rfl⟩, rfl, rfl⟩
  | receiveWindow =>
    unfold resized
    split_ifs <;> exact ⟨⟨rfl, fun _ => le_rfl⟩, rfl, rfl⟩
  | _ => exact ⟨⟨rfl, fun _ => le_rfl⟩, rfl, rfl⟩

theorem Heard.quiet {payloadLen : Nat} (h : Heard a payloadLen frame a') :
    Quiet a a' := by
  cases h with
  | stream _ _ _ h =>
    cases h with
    | dropped => exact .refl a
    | buffered =>
      refine Quiet.trans ?_ (quiet_announce _ _)
      exact ⟨⟨rfl, fun _ => le_rfl⟩, rfl, rfl⟩
    | discarded | closed =>
      refine Quiet.trans ?_ (quiet_credit _ _)
      exact ⟨⟨rfl, fun _ => le_rfl⟩, rfl, rfl⟩
  | resetStream _ _ _ _ _ h =>
    cases h with
    | redundant => exact .refl a
    | reset | closed =>
      refine Quiet.trans ?_ (quiet_settle _ _ _)
      refine Quiet.trans ?_ (quiet_announce _ _)
      exact ⟨⟨rfl, fun _ => le_rfl⟩, rfl, rfl⟩
  | stopSending id => exact quiet_announce a id
  | maxStreamData =>
    refine Quiet.trans ?_ (quiet_announce _ _)
    exact ⟨⟨rfl, fun _ => le_rfl⟩, rfl, rfl⟩
  | maxStreamDataClosed id => exact quiet_announce a id
  | _ => exact ⟨⟨rfl, fun _ => le_rfl⟩, rfl, rfl⟩

theorem Fate.quiet (h : Fate a a') : Quiet a a' := by
  cases h <;> exact ⟨⟨rfl, fun _ => le_rfl⟩, rfl, rfl⟩

theorem Sends.advances (h : Sends q a frames a') : Advances a a' := by
  induction h with
  | nil => exact .refl _
  | cons h _ ih =>
    refine Advances.trans ?_ ih
    cases h <;> exact ⟨rfl, fun _ => le_rfl⟩

theorem step_advances {s s' : State} (htidy : Tidy s.party) (h : step s m = some s') :
    Advances (accounts s.party.streams) (accounts s'.party.streams) := by
  cases (step_done htidy h).2 with
  | call hcalled => exact (Called.quiet hcalled).toAdvances
  | receive _ hheard => exact (Heard.quiet hheard).toAdvances
  | transmit _ hsends => exact Sends.advances hsends
  | acked _ hacked => exact (Fate.quiet hacked.fate).toAdvances
  | lost _ hlost => exact (Fate.quiet hlost.fate).toAdvances

end Advances

section Known

def Names (opened : StreamId → Prop) : StreamsFrame → Prop
  | .stream frame => opened frame.id
  | .resetStream id _ _ => opened id
  | .maxStreamData id _ => opened id
  | _ => True

/-- All that was sent or is to be sent is about streams that are open. -/
structure Known (s : State) (opened : StreamId → Prop) : Prop where
  queue : ∀ id ∈ queued s.party.streams.pending, opened id
  resets : ∀ x ∈ s.party.pending.resetStream, opened x.1
  limits : ∀ id ∈ s.party.pending.maxStreamData, opened id
  sent : ∀ frame ∈ s.sent, Names opened frame

variable {s s' : State} {opened opened' : StreamId → Prop}

theorem Names.mono (h : Names opened frame)
    (hopened : ∀ id, opened id → opened' id) : Names opened' frame := by
  cases frame with
  | stream | resetStream | maxStreamData => exact hopened _ h
  | _ => exact trivial

theorem Known.mono (h : Known s opened) (hopened : ∀ id, opened id → opened' id) :
    Known s opened' :=
  ⟨fun id hid => hopened id (h.queue id hid), fun x hx => hopened _ (h.resets x hx),
    fun id hid => hopened id (h.limits id hid), fun frame hmem => (h.sent frame hmem).mono hopened⟩

/-- A stream with a half is open, or the call is not about it. -/
def OpenIfTouched (p : Party) (opened : StreamId → Prop) (c : Call) : Prop :=
  ∀ id, touched c = some id → p.streams.getSend id ≠ none ∨ p.streams.getRecv id ≠ none → opened id

theorem Called.known {a' : Accounts} {p : Party} {q' : Retransmits} {c : Call} {r : Reply}
    (h : Called (accounts p.streams) p.pending c r a' q') (hopen : OpenIfTouched p opened c)
    (hresets : ∀ x ∈ p.pending.resetStream, opened x.1)
    (hlimits : ∀ id ∈ p.pending.maxStreamData, opened id) :
    (∀ x ∈ q'.resetStream, opened x.1) ∧ ∀ id ∈ q'.maxStreamData, opened id := by
  have hread : ∀ id maxLengths recv, c = .read id maxLengths →
      p.streams.getRecv id = some recv → Requeued p.pending q' id →
      (∀ x ∈ q'.resetStream, opened x.1) ∧ ∀ id ∈ q'.maxStreamData, opened id := by
    rintro id maxLengths recv rfl hrecv ⟨maxData, maxStreamId, maxStreamData, rfl, hq⟩
    refine ⟨hresets, fun j hj => ?_⟩
    rcases hq j hj with hj | rfl
    · exact hlimits j hj
    · exact hopen j rfl (.inr (by simp [hrecv]))
  cases h with
  | reset id _ _ hsend =>
    refine ⟨fun x hx => ?_, hlimits⟩
    rcases mem_append.mp hx with hx | hx
    · exact hresets x hx
    · rw [mem_singleton.mp hx]
      refine hopen id rfl (.inl fun hnone => ?_)
      simp [accounts, hnone] at hsend
  | read id maxLengths _ recv _ h _ _ _ _ hq =>
    exact hread id maxLengths recv rfl h hq
  | readUp id maxLengths results recv assembler h hstopped hreads hends maxRemote allocated hroom
      q' hq => exact hread id maxLengths recv rfl h hq
  | _ => exact ⟨hresets, hlimits⟩

theorem Known.step (h : Known s opened) (htidy : Tidy s.party)
    (hopen : ∀ c, m = .call c → OpenIfTouched s.party opened c) (hstep : step s m = some s') :
    Known s' opened := by
  cases (step_done htidy hstep).2 with
  | call hcalled =>
    obtain ⟨hresets, hlimits⟩ := Called.known hcalled (hopen _ rfl) h.resets h.limits
    refine ⟨fun id hid => ?_, hresets, hlimits, h.sent⟩
    rcases call_queued hid with hid | ⟨hsend, ⟨_, rfl⟩ | rfl⟩
    · exact h.queue id hid
    all_goals exact hopen _ rfl id rfl (.inl hsend)
  | receive hreceive _ hpending =>
    obtain ⟨_, _, hq⟩ := hpending
    refine ⟨?_, ?_, ?_, h.sent⟩
    · rw [receive_queued hreceive]
      exact h.queue
    · rw [hq]
      exact h.resets
    · rw [hq]
      exact h.limits
  | transmit htransmit hsends hwithin =>
    obtain ⟨hqueue, hstreams⟩ := transmit_queued htransmit
    refine ⟨fun id hid => h.queue id (hqueue id hid),
      fun x hx => h.resets x (hwithin.resetStream x hx),
      fun id hid => h.limits id (hwithin.maxStreamData id hid), fun frame hmem => ?_⟩
    rcases mem_append.mp hmem with hmem | hmem
    · exact h.sent frame hmem
    · obtain ⟨b, _, hemits⟩ := hsends.emits hmem
      cases hemits with
      | stream id => exact h.queue id (hstreams _ hmem)
      | resetStream _ _ _ _ hqueued => exact h.resets _ hqueued
      | maxStreamData id _ _ hqueued => exact h.limits id hqueued
      | _ => exact trivial
  | acked _ _ hq =>
    refine ⟨?_, ?_, ?_, h.sent⟩
    · rw [acked_queued]
      exact h.queue
    · rw [hq]
      exact h.resets
    · rw [hq]
      exact h.limits
  | lost hmem _ hq =>
    refine ⟨fun id hid => ?_, fun x hx => ?_, fun id hid => ?_, h.sent⟩
    · rcases lost_queued hid with hid | ⟨f, rfl, rfl⟩
      · exact h.queue id hid
      · exact h.sent _ hmem
    · rcases hq.resetStream x hx with hx | ⟨_, rfl⟩
      · exact h.resets x hx
      · exact h.sent _ hmem
    · rcases hq.maxStreamData id hid with hid | ⟨_, rfl⟩
      · exact h.limits id hid
      · exact h.sent _ hmem

end Known

section Local

/-- A frame runs the way its stream does, and complains about no more than was offered. -/
def Directed (side : Side) (peer : Offer) : StreamsFrame → Prop
  | .stream frame => frame.id.initiator ≠ side → frame.id.dir = .bi
  | .resetStream id _ _ => id.initiator ≠ side → id.dir = .bi
  | .maxStreamData id _ => id.initiator = side → id.dir = .bi
  | .streamsBlocked dir limit => limit ≤ peer.streams dir
  | _ => True

variable {a a' : Accounts} {q : Retransmits} {log peer peer' : Log} {ledger : Ledger}
  {granted : StreamId → Nat} {o o' : Offer} {side : Side} {s s' : State}
  {opened opened' : StreamId → Prop}

theorem Directed.mono (h : Directed side o frame) (ho : o.Grows o') :
    Directed side o' frame := by
  cases frame with
  | streamsBlocked dir => exact h.trans (ho.streams dir)
  | _ => exact h

theorem Sends.offers (h : Sends q a frames a') (ho : Obeys a log o)
    (hg : Grants a granted) : ∃ granted', Grants a' granted' ∧ Obeys a' log o ∧
      (offer a granted).Grows (offer a' granted') ∧
      ∀ frame ∈ frames, Directed a.side o frame ∧ Within (offer a' granted') frame := by
  induction h generalizing granted with
  | nil => exact ⟨granted, hg, ho, .refl _, fun _ h => (not_mem_nil h).elim⟩
  | @cons a b _ _ _ h _ ih =>
    obtain ⟨_, hg', hgrows, hwithin⟩ := Emits.grants h hg
    obtain ⟨granted'', hg'', ho'', hgrows', hframes⟩ := ih (Emits.obeys h ho) hg'
    refine ⟨granted'', hg'', ho'', hgrows.trans hgrows', fun frame' hmem => ?_⟩
    rcases mem_cons.mp hmem with rfl | hmem
    · refine ⟨?_, hwithin.mono hgrows'⟩
      cases h with
      | stream id half h => exact (Each.entry ho.each id half h).2.2
      | resetStream id _ half h => exact (Each.entry ho.each id half h).2.2
      | maxStreamData id recv h => exact (Each.entry hg.each id recv h).2.2
      | streamsBlocked dir => exact ho.max dir
      | _ => exact trivial
    · have hside : b.side = a.side := (Sends.advances (.single h)).side
      rw [← hside]
      exact hframes frame' hmem

theorem Sends.counts (h : Sends q a frames a')
    (hc : Counts a ledger peer) : Counts a' ledger peer := by
  induction h with
  | nil => exact hc
  | cons h _ ih =>
    apply ih
    cases h <;> exact hc.congr rfl

structure Local (side : Side) (s : State) (log : Log) (ledger : Ledger) (granted : StreamId → Nat)
    (peer : Log) (o : Offer) (opened : StreamId → Prop) : Prop where
  side_eq : (accounts s.party.streams).side = side
  faithful : Faithful s log peer
  obeys : Obeys (accounts s.party.streams) log o
  grants : Grants (accounts s.party.streams) granted
  halves : Halves (accounts s.party.streams) ledger
  counts : Counts (accounts s.party.streams) ledger peer
  known : Known s opened
  sent : ∀ frame ∈ s.sent, Directed side o frame ∧
    Within (offer (accounts s.party.streams) granted) frame

theorem Local.mono (h : Local side s log ledger granted peer o opened) (hpeer : Extends peer peer')
    (ho : o.Grows o') (hopened : ∀ id, opened id → opened' id) :
    Local side s log ledger granted peer' o' opened' := by
  obtain ⟨htidy, hsender, hresets, hsent, hreceiver⟩ := h.faithful
  exact ⟨h.side_eq, ⟨htidy, hsender, hresets, hsent, hreceiver.mono hpeer⟩, h.obeys.mono ho,
    h.grants, h.halves, h.counts.mono hpeer, h.known.mono hopened,
    fun frame hmem => ⟨(h.sent frame hmem).1.mono ho, (h.sent frame hmem).2⟩⟩

/-- What one move does at the side that makes it. -/
theorem Local.step (h : Local side s log ledger granted peer o opened)
    (hbound : s.party.streams.sentMaxData < 2 ^ 60)
    (hfits : Fits peer s.party.streams.sentMaxData)
    (hoffered : ∀ payloadLen frame, m = .receive payloadLen frame →
      Truthful peer frame ∧ Within o frame)
    (hopen : ∀ c, m = .call c → OpenIfTouched s.party opened c) (hstep : step s m = some s') :
    ∃ granted', Local side s' (log.moved s m) (Ledger.observe s m ledger) granted' peer o opened ∧
      (offer (accounts s.party.streams) granted).Grows
        (offer (accounts s'.party.streams) granted') ∧
      Extends log (log.moved s m) := by
  obtain ⟨hfaithful', hextends⟩ :=
    h.faithful.step (fun payloadLen frame hm => (hoffered payloadLen frame hm).1) hstep
  have htidy := h.faithful.tidy
  have hside := (step_advances htidy hstep).side.trans h.side_eq
  have hknown := h.known.step htidy hopen hstep
  -- Only a transmission offers something new.
  have hquiet : Quiet (accounts s.party.streams) (accounts s'.party.streams) → s'.sent = s.sent →
      (∀ frame ∈ s'.sent, Directed side o frame ∧
        Within (offer (accounts s'.party.streams) granted) frame) ∧
      (offer (accounts s.party.streams) granted).Grows
        (offer (accounts s'.party.streams) granted) := by
    intro hquiet hsent
    have hsame : offer (accounts s'.party.streams) granted =
        offer (accounts s.party.streams) granted := by
      simp only [offer, hquiet.maxData, hquiet.streams]
    rw [hsame, hsent]
    exact ⟨h.sent, .refl _⟩
  cases (step_done htidy hstep).2 with
  | call hcalled =>
    obtain ⟨hsent, hgrows⟩ := hquiet (Called.quiet hcalled) rfl
    exact ⟨granted, ⟨hside, hfaithful', Called.obeys hcalled h.faithful.sender h.obeys,
      Called.grants hcalled h.grants hbound, Called.halves hcalled h.halves,
      Called.counts hcalled h.counts, hknown, hsent⟩, hgrows, hextends⟩
  | receive _ hheard =>
    obtain ⟨htruthful, hwithin⟩ := hoffered _ _ rfl
    obtain ⟨hsent, hgrows⟩ := hquiet (Heard.quiet hheard) rfl
    exact ⟨granted, ⟨hside, hfaithful', Heard.obeys hheard h.obeys hwithin,
      Heard.grants hheard htidy.ordered h.grants hbound, Heard.halves hheard h.halves,
      Heard.counts hheard h.halves h.counts htruthful hbound hfits, hknown, hsent⟩,
        hgrows, hextends⟩
  | transmit _ hsends =>
    obtain ⟨granted', hg, ho, hgrows, hframes⟩ := Sends.offers hsends h.obeys h.grants
    refine ⟨granted', ⟨hside, hfaithful', ho, hg, Sends.halves hsends h.halves,
      Sends.counts hsends h.counts, hknown, fun frame hmem => ?_⟩, hgrows, hextends⟩
    rcases mem_append.mp hmem with hmem | hmem
    · exact ⟨(h.sent frame hmem).1, (h.sent frame hmem).2.mono hgrows⟩
    · rw [← h.side_eq]
      exact hframes frame hmem
  | acked _ hfated | lost _ hfated =>
    have hfate := hfated.fate
    obtain ⟨hsent, hgrows⟩ := hquiet (Fate.quiet hfate) rfl
    exact ⟨granted, ⟨hside, hfaithful', Fate.obeys hfate h.obeys, Fate.grants hfate h.grants,
      h.halves.keeps (Fate.keepsRecv hfate), Fate.counts hfate h.counts, hknown, hsent⟩,
      hgrows, hextends⟩

end Local

section Run

def Sound (l : Side → State) (logs : Side → Log) (ledgers : Side → Ledger)
    (granted : Side → StreamId → Nat) : Prop :=
  ∀ side, Local side (l side) (logs side) (ledgers side) (granted side) (logs side.peer)
    (offer (accounts (l side.peer).party.streams) (granted side.peer)) (Opened l)

def Inv (l : Side → State) : Prop :=
  ∃ logs ledgers granted, Sound l logs ledgers granted

variable {l l' : Side → State}

theorem inv_step {move : Side × Move} (hl : Inv l) (hm : Allowed l move)
    (h : link.step l move = some l') : Inv l' := by
  obtain ⟨logs, ledgers, granted, hsound⟩ := hl
  obtain ⟨side, m⟩ := move
  obtain ⟨hbounded, horderly⟩ := hm
  obtain ⟨hoffered, s, hstep, rfl⟩ := linkStep_eq_some h
  have hne : side.peer ≠ side := Accounts.peer_ne side
  have hlocal := hsound side
  have hpeer := hsound side.peer
  rw [peer_peer] at hpeer
  have hdelivered : ∀ payloadLen frame, m = .receive payloadLen frame →
      Truthful (logs side.peer) frame ∧
        Within (offer (accounts (l side.peer).party.streams) (granted side.peer)) frame := by
    rintro payloadLen frame rfl
    exact ⟨hpeer.faithful.sent frame hoffered, (hpeer.sent frame hoffered).2⟩
  have hopen : ∀ c, m = .call c → OpenIfTouched (l side).party (Opened l) c := by
    rintro c rfl id hid hhalf
    rcases eq_or_eq_peer side id.initiator with hside | hside
    · have hborn : ¬ (accounts (l side).party.streams).Unborn id := by
        rcases hhalf with hhalf | hhalf
        · exact hlocal.obeys.each.used id (by simpa [accounts] using hhalf)
        · exact hlocal.grants.each.used id hhalf
      subst hside
      refine lt_of_not_ge fun hle => hborn ⟨fun _ => hle, fun hne => ?_⟩
      exact absurd hlocal.side_eq.symm hne
    · exact horderly id hid hside
  obtain ⟨granted', hmoved, hgrows, hextends⟩ := hlocal.step (hbounded side).maxData
    (fun t ht => hpeer.obeys.total_le ht) hdelivered hopen hstep
  have hopened : ∀ id, Opened l id → Opened (update l side s) id := by
    intro id hid
    have hnext := (step_advances hlocal.faithful.tidy hstep).next id.dir
    unfold Opened at hid ⊢
    rcases eq_or_ne id.initiator side with hside | hside
    · rw [hside] at hid ⊢
      rw [update_self]
      exact lt_of_lt_of_le hid hnext
    · rw [update_of_ne hside]
      exact hid
  refine ⟨update logs side ((logs side).moved (l side) m),
    update ledgers side (Ledger.observe (l side) m (ledgers side)),
    update granted side granted', fun other => ?_⟩
  rcases eq_or_eq_peer side other with rfl | rfl
  · simp only [update_self, update_of_ne hne]
    exact hmoved.mono (extends_refl _) (.refl _) hopened
  · simp only [update_self, update_of_ne hne, peer_peer]
    exact hpeer.mono hextends hgrows hopened

theorem obeys_initial (side : Side) (maxRemote : Dir → Nat) (receiveWindow streamWindow : Nat)
    (params : StreamsState.PeerLimits) {o : Offer} (hdata : params.initialMaxData ≤ o.maxData)
    (hbi : params.initialMaxStreamsBidi ≤ o.streams .bi)
    (huni : params.initialMaxStreamsUni ≤ o.streams .uni)
    (hstream : ∀ id, (initialAccounts side maxRemote receiveWindow streamWindow params).maxSendData
      id ≤ o.streamData id) :
    Obeys (initialAccounts side maxRemote receiveWindow streamWindow params) .empty o := by
  refine ⟨hdata, fun dir => ?_, fun _ => Nat.zero_le _, hstream, Nat.zero_le _,
    ⟨.empty, fun _ => rfl, rfl⟩, fun _ => Nat.zero_le _, ?_⟩
  · cases dir with
    | bi => exact hbi
    | uni => exact huni
  · exact Begins.eachSend (begins_initial _ _ _ _ _) (fun _ => rfl) fun id hdir =>
      ⟨Nat.zero_le _, hstream id, fun _ => hdir⟩

theorem inv_initial (h : link.initial l) : Inv l := by
  obtain ⟨config, rfl⟩ := h
  refine ⟨fun _ => .empty, fun _ => .empty, fun side _ => (config side).streamReceiveWindow,
    fun side => ?_⟩
  have hfaithful := StreamDelivery.inv_initial (s := (start config, fun _ => .empty))
    ⟨⟨config, rfl⟩, rfl⟩ side
  have haccounts : ∀ side, accounts (start config side).party.streams = initialAccounts side
      (remoteLimits (config side).maxConcurrentUniStreams (config side).maxConcurrentBidiStreams)
      (config side).receiveWindow (config side).streamReceiveWindow (config side.peer).limits :=
    fun side => (accounts_new side _ _ (config side).sendWindow _ _ _).2
  refine ⟨?_, hfaithful, ?_, ?_, ?_, ?_, ⟨?_, ?_, ?_, ?_⟩, ?_⟩
  · rw [haccounts]
    rfl
  · rw [haccounts, haccounts]
    refine obeys_initial _ _ _ _ _ le_rfl le_rfl le_rfl fun id => ?_
    simp only [initialAccounts, offer, Config.limits]
    split
    · exact le_rfl
    · split_ifs <;> exact le_rfl
  · rw [haccounts]
    refine ⟨le_rfl, fun _ => le_rfl, ?_⟩
    exact Begins.eachRecv (begins_initial _ _ _ _ _) (fun _ => le_rfl) fun id hne =>
      ⟨le_rfl, Nat.le_add_left _ _, fun hside => absurd hside hne⟩
  · rw [haccounts]
    exact halves_of_begins (begins_initial _ _ _ _ _)
  · rw [haccounts]
    exact ⟨rfl, fun _ => Nat.zero_le _⟩
  · rw [show queued (start config side).party.streams.pending = [] from queued_new _ _ _ _ _ _ _]
    exact fun _ h => (not_mem_nil h).elim
  all_goals exact fun _ h => (not_mem_nil h).elim

theorem inv_of_allowed (hl : link.ReachableVia Allowed l) : Inv l :=
  hl.invariant (fun _ => inv_initial) fun _ _ _ => inv_step

theorem Sound.receivable (h : Sound l logs ledgers granted) (hopened : Opened l id)
    (hdir : id.initiator ≠ side.peer → id.dir = .bi) :
    Receivable (accounts (l side).party.streams) id := by
  have hlocal := h side
  have hpeer := h side.peer
  rw [peer_peer] at hpeer
  refine ⟨fun hside => ?_, fun hside => ?_⟩
  · rw [hlocal.side_eq] at hside
    have hbi : id.dir = .bi := hdir (by rw [hside]; exact (Accounts.peer_ne side).symm)
    unfold Opened at hopened
    rw [hside, hbi] at hopened
    exact ⟨hbi, hopened⟩
  · rw [hlocal.side_eq] at hside
    have hinitiator := (eq_or_eq_peer side id.initiator).resolve_left hside
    unfold Opened at hopened
    rw [hinitiator] at hopened
    calc id.index
      _ < (l side.peer).party.streams.next id.dir := hopened
      _ ≤ (l side.peer).party.streams.max id.dir := hpeer.obeys.next id.dir
      _ ≤ (l side).party.streams.sentMaxRemote id.dir := hpeer.obeys.max id.dir
      _ ≤ (l side).party.streams.maxRemote id.dir := hlocal.grants.streams id.dir

theorem Sound.fits (h : Sound l logs ledgers granted)
    (hrecv : (l side).party.streams.getRecv id = some recv) (hreceiving : recv.isReceiving = true)
    {stop : Nat} (hstop : stop ≤ ((logs side.peer).written id).length) :
    (l side).party.streams.dataRecvd + (stop - recv.stop) ≤
      (l side).party.streams.localMaxData := by
  have hlocal := h side
  have hpeer := h side.peer
  rw [peer_peer] at hpeer
  have hcount := (hlocal.halves.entry hrecv).receiving hreceiving
  have hle := hlocal.counts.le id
  have htotal : (l side).party.streams.dataRecvd = (ledgers side).received.total :=
    hlocal.counts.total
  have hset := (ledgers side).received.total_set id (max recv.stop stop)
  have hsum : ((ledgers side).received.set id (max recv.stop stop)).total ≤
      (l side).party.streams.sentMaxData := by
    refine hpeer.obeys.total_le fun j => ?_
    rcases eq_or_ne j id with rfl | hne
    · rw [Tally.set_count_self]
      omega
    · rw [Tally.set_count_of_ne _ hne]
      exact hlocal.counts.le j
  have hoffer : (l side).party.streams.sentMaxData ≤ (l side).party.streams.localMaxData :=
    hlocal.grants.maxData
  omega

theorem Sound.room (h : Sound l logs ledgers granted)
    (hrecv : (l side).party.streams.getRecv id = some recv) :
    ((logs side.peer).written id).length ≤ recv.sentMaxStreamData := by
  have hpeer := h side.peer
  rw [peer_peer] at hpeer
  exact (hpeer.obeys.written id).trans (Each.entry (h side).grants.each id recv hrecv).1

theorem Sound.admits (h : Sound l logs ledgers granted) (hbounded : Bounded (l side))
    {frame : StreamFrame} (hframe : Truthful (logs side.peer) (.stream frame))
    (hrecv : (l side).party.streams.getRecv frame.id = some recv)
    (hreceiving : recv.isReceiving = true) :
    recv.Admits (frame.offset + frame.data.length) frame.fin (l side).party.streams.dataRecvd
      (l side).party.streams.localMaxData := by
  obtain ⟨-, hstop, hfin⟩ := hframe
  have hroom := h.room hrecv
  have hbound := hbounded.streamData frame.id recv hrecv
  have hreading := (h side).faithful.receiver.reading hrecv
  refine ⟨by omega, fun final hfinal => ?_, hstop.trans hroom, h.fits hrecv hreceiving hstop⟩
  rw [hreading.final hfinal]
  exact ⟨hstop, fun h => (hfin h).2⟩

theorem Sound.admitsReset (h : Sound l logs ledgers granted) {errorCode finalOffset : Nat}
    (hframe : Truthful (logs side.peer) (.resetStream id errorCode finalOffset))
    (hrecv : (l side).party.streams.getRecv id = some recv)
    (horderly : recv.isReceiving = false → recv.stop = finalOffset) :
    recv.AdmitsReset finalOffset (l side).party.streams.dataRecvd
      (l side).party.streams.localMaxData := by
  obtain ⟨-, hlength⟩ := hframe
  have hroom := h.room hrecv
  have hreading := (h side).faithful.receiver.reading hrecv
  have hstop : recv.stop ≤ finalOffset := by
    rcases hreceiving : recv.isReceiving with _ | _
    · exact (horderly hreceiving).le
    · rw [← ((h side).halves.entry hrecv).receiving hreceiving, hlength]
      exact (h side).counts.le id
  refine ⟨fun final hfinal => ?_, fun _ => hstop, hlength ▸ hroom, ?_⟩
  · rw [hlength]
    exact hreading.final hfinal
  · rcases hreceiving : recv.isReceiving with _ | _
    · -- The frame is redundant, and there is nothing new to count.
      have hnone : finalOffset - recv.stop = 0 := by
        rw [horderly hreceiving, Nat.sub_self]
      have hpeer := h side.peer
      rw [peer_peer] at hpeer
      have htotal := hpeer.obeys.total_le (h side).counts.le
      rw [← (h side).counts.total] at htotal
      rw [hnone]
      exact le_trans htotal (h side).grants.maxData
    · exact h.fits hrecv hreceiving hlength.le

theorem receive_isOk {p p' : Party} {payloadLen : Nat}
    (h : p.processFrame payloadLen frame = .ok p') : ∃ q, p.receive payloadLen frame = .ok q := by
  unfold Party.receive
  rw [h]
  exact ⟨_, rfl⟩

theorem Sound.accepts (h : Sound l logs ledgers granted) (hbounded : ∀ side, Bounded (l side))
    {side : Side}
    (hsent : frame ∈ (l side.peer).sent)
    (hstop : ∀ id errorCode, frame ≠ .stopSending id errorCode) (payloadLen : Nat)
    (horderly : Orderly l (side, .receive payloadLen frame)) :
    ∃ p, (l side).party.receive payloadLen frame = .ok p := by
  have hpeer := h side.peer
  have hlocal := h side
  have htruthful := hpeer.faithful.sent frame hsent
  have hnames := hpeer.known.sent frame hsent
  obtain ⟨hdirected, hwithin⟩ := hpeer.sent frame hsent
  rw [peer_peer] at hpeer hdirected
  cases frame with
  | stream frame =>
    obtain ⟨result, hok⟩ :
        ∃ result, (l side).party.streams.received frame payloadLen = .ok result :=
      received_isOk (h.receivable hnames hdirected)
        fun recv hrecv hreceiving => h.admits (hbounded side) htruthful hrecv hreceiving
    exact receive_isOk (by simp only [Party.processFrame, hok]; rfl)
  | resetStream id errorCode finalOffset =>
    obtain ⟨result, hok⟩ : ∃ result,
        (l side).party.streams.receivedReset id errorCode finalOffset = .ok result :=
      receivedReset_isOk (h.receivable hnames hdirected)
        fun recv hrecv => h.admitsReset htruthful hrecv (horderly recv hrecv)
    exact receive_isOk (by simp only [Party.processFrame, hok]; rfl)
  | stopSending id errorCode => exact absurd rfl (hstop id errorCode)
  | maxData => exact receive_isOk rfl
  | maxStreamData id limit =>
    have hside : (l side).party.streams.side = side := hlocal.side_eq
    have htheirs : id.initiator ≠ (l side).party.streams.side → id.dir = .bi := fun hne =>
      hdirected ((eq_or_eq_peer side id.initiator).resolve_left (hside ▸ hne))
    have hours : id.initiator = (l side).party.streams.side →
        id.index < (l side).party.streams.next id.dir := by
      intro heq
      have hopened : Opened l id := hnames
      unfold Opened at hopened
      rwa [heq.trans hside] at hopened
    obtain ⟨streams, hok⟩ : ∃ streams,
        (l side).party.streams.receivedMaxStreamData id limit = .ok streams :=
      receivedMaxStreamData_isOk htheirs hours
    exact receive_isOk (by simp only [Party.processFrame, hok]; rfl)
  | maxStreams dir count =>
    have hcount : count ≤ maxStreamCount :=
      hwithin.trans ((hbounded side.peer).streams dir).le
    have hok : ∃ streams, (l side).party.streams.receivedMaxStreams dir count = .ok streams := by
      unfold StreamsState.receivedMaxStreams
      rw [if_neg (Nat.not_lt_of_le hcount)]
      split_ifs <;> exact ⟨_, rfl⟩
    obtain ⟨streams, hok⟩ := hok
    exact receive_isOk (by simp only [Party.processFrame, hok]; rfl)
  | streamsBlocked dir limit =>
    have hlimit : limit ≤ maxStreamCount := hdirected.trans ((hbounded side).streams dir).le
    have hok : (l side).party.processFrame payloadLen (.streamsBlocked dir limit) =
        .ok (l side).party := if_neg (Nat.not_lt_of_le hlimit)
    exact receive_isOk hok

end Run

/-- Every frame that the peer has sent is accepted, and no side uses more than it was
offered or has offered more than it has. -/
theorem limits_sound {l : Side → State} (hl : link.ReachableVia Allowed l)
    (hbounded : ∀ side, Bounded (l side)) (side : Side) :
    (∀ payloadLen frame, frame ∈ (l side.peer).sent →
      (∀ id errorCode, frame ≠ .stopSending id errorCode) →
      Orderly l (side, .receive payloadLen frame) →
      ∃ p, (l side).party.receive payloadLen frame = .ok p) ∧
    (l side).party.streams.dataSent ≤ (l side).party.streams.maxData ∧
    (∀ id half, (l side).party.streams.getSend id = some half →
      half.pending.offset ≤ half.maxData) ∧
    (l side).party.streams.sentMaxData ≤ (l side).party.streams.localMaxData ∧
    (∀ id recv, (l side).party.streams.getRecv id = some recv → recv.sentMaxStreamData ≤
        recv.assembler.bytesRead + (l side).party.streams.streamReceiveWindow) ∧
    ∀ dir, (l side).party.streams.sentMaxRemote dir ≤ (l side).party.streams.maxRemote dir := by
  obtain ⟨logs, _, _, hsound⟩ := inv_of_allowed hl
  have hlocal := hsound side
  refine ⟨fun payloadLen frame hsent hstop horderly =>
    hsound.accepts hbounded hsent hstop payloadLen horderly, hlocal.obeys.dataSent,
    fun id half hhalf => ?_, hlocal.grants.maxData,
    fun id recv hrecv => (Each.entry hlocal.grants.each id recv hrecv).2.1, hlocal.grants.streams⟩
  have hsend : (accounts (l side).party.streams).send id = some (.ofSend half) := by
    simp [accounts, hhalf]
  have hoffset : half.pending.offset = ((logs side).written id).length :=
    (hlocal.faithful.sender.sending hsend).carries.offset
  rw [hoffset]
  exact (Each.entry hlocal.obeys.each id _ hsend).1

section Checks

variable {l : Side → State}

def candidates (s : State) : List StreamId :=
  [Side.client, .server].flatMap fun initiator => [Dir.bi, .uni].flatMap fun dir =>
    (List.range (max (s.party.streams.next dir) (s.party.streams.maxRemote dir))).map
      fun index => ⟨initiator, dir, index⟩

def sideBounded (s : State) : Bool :=
  decide (s.party.streams.sentMaxData < 2 ^ 60) &&
    [Dir.bi, .uni].all (fun dir => s.party.streams.sentMaxRemote dir < 2 ^ 60) &&
    (candidates s).all fun id =>
      (s.party.streams.getRecv id).all fun recv => recv.sentMaxStreamData < 2 ^ 60

def boundedNow (l : Side → State) : Bool :=
  sideBounded (l .client) && sideBounded (l .server)

def orderlyNow (l : Side → State) : Side × Move → Bool
  | (side, .call c) =>
    (touched c).all fun id => id.initiator == side ||
      decide (id.index < (l id.initiator).party.streams.next id.dir)
  | (side, .receive _ (.resetStream id _ finalOffset)) =>
    ((l side).party.streams.getRecv id).all fun recv =>
      recv.isReceiving || recv.stop == finalOffset
  | _ => true

theorem mem_candidates (hl : link.Reachable l)
    (hrecv : (l side).party.streams.getRecv id = some recv) : id ∈ candidates (l side) := by
  obtain ⟨logs, hconversation⟩ : ∃ logs, conversation.Reachable (l, logs) :=
    System.Reachable.exists_observed hl
  have hfaithful := System.Reachable.invariant (fun _ => StreamDelivery.inv_initial)
    (fun _ _ _ => StreamDelivery.inv_step) hconversation side
  have hborn := Each.used_of_eq hfaithful.receiver.each hrecv
  have hindex : id.index < max ((l side).party.streams.next id.dir)
      ((l side).party.streams.maxRemote id.dir) := by
    by_contra hle
    rw [not_lt, Nat.max_le] at hle
    exact hborn ⟨fun _ => hle.1, fun _ => hle.2⟩
  obtain ⟨initiator, dir, index⟩ := id
  simp only [candidates, mem_flatMap, mem_map, mem_range]
  refine ⟨initiator, ?_, dir, ?_, index, hindex, rfl⟩
  · cases initiator <;> simp
  · cases dir <;> simp

theorem bounded_of_sideBounded (hl : link.Reachable l) (h : sideBounded (l side) = true) :
    Bounded (l side) := by
  simp only [sideBounded, Bool.and_eq_true, decide_eq_true_eq, all_eq_true] at h
  obtain ⟨⟨hdata, hstreams⟩, hhalves⟩ := h
  refine ⟨hdata, fun dir => hstreams dir (by cases dir <;> simp), fun id recv hrecv => ?_⟩
  have hhalf := hhalves id (mem_candidates hl hrecv)
  rw [hrecv] at hhalf
  exact of_decide_eq_true hhalf

theorem bounded_of_boundedNow (hl : link.Reachable l) (h : boundedNow l = true) (side : Side) :
    Bounded (l side) := by
  obtain ⟨hclient, hserver⟩ := Bool.and_eq_true_iff.mp h
  cases side with
  | client => exact bounded_of_sideBounded hl hclient
  | server => exact bounded_of_sideBounded hl hserver

theorem orderly_of_orderlyNow {move : Side × Move} (h : orderlyNow l move = true) :
    Orderly l move := by
  obtain ⟨side, m⟩ := move
  cases m with
  | call =>
    intro id hid hside
    simp only [orderlyNow, hid, Option.all_some, Bool.or_eq_true, beq_iff_eq,
      decide_eq_true_eq] at h
    rcases h with h | h
    · exact absurd (hside.symm.trans h) (Accounts.peer_ne side)
    · exact h
  | receive _ frame =>
    cases frame with
    | resetStream =>
      intro recv hrecv hreset
      simpa [orderlyNow, hrecv, hreset] using h
    | _ => exact trivial
  | _ => exact trivial

end Checks

def stream0 : StreamId := ⟨.client, .uni, 0⟩

def stream1 : StreamId := ⟨.client, .uni, 1⟩

def small : Side → State :=
  start fun _ => ⟨2, 1, 100, 10, 10⟩

def packet : PacketSpace :=
  ⟨0, 100, true, []⟩

/-- Ten bytes are written to a stream, which is reset before any of them is sent; the
peer then makes room for ten more. -/
def resetRun : List (Side × Move) :=
  [(.client, .call (.openStream .uni)), (.client, .call (.openStream .uni)),
    (.client, .call (.write stream0 (List.replicate 10 7))), (.client, .call (.reset stream0 0)),
    (.client, .transmit packet), (.server, .receive 10 (.resetStream stream0 0 10)),
    (.server, .transmit packet), (.client, .receive 10 (.maxData 20)),
    (.client, .call (.write stream1 (List.replicate 10 7))), (.client, .transmit packet)]

/-- The ten bytes for which there is room again are sent and accepted. -/
theorem reset_sound : ∃ l, link.ReachableVia Allowed l ∧ (∀ side, Bounded (l side)) ∧
    (l .client).party.streams.dataSent = 20 ∧ (l .client).party.streams.maxData = 20 ∧
    ∃ p, (l .server).party.receive 10 (.stream ⟨stream1, 0, false, List.replicate 10 7⟩) =
      .ok p := by
  have hreach : link.ReachableVia Allowed _ := .of_runChecked_reachable (fun l move hl hcheck => by
    obtain ⟨hnow, horderly⟩ := Bool.and_eq_true_iff.mp hcheck
    exact ⟨bounded_of_boundedNow hl.reachable hnow, orderly_of_orderlyNow horderly⟩)
      (.initial ⟨_, rfl⟩)
    (rfl : link.runChecked (fun l move => boundedNow l && orderlyNow l move) small
      resetRun = some _)
  have hbounded := bounded_of_boundedNow hreach.reachable rfl
  exact ⟨_, hreach, hbounded, rfl, rfl, (limits_sound hreach hbounded .server).1 10 _ (by decide)
    (fun _ _ h => (by cases h)) trivial⟩

/-- A RESET_STREAM frame that arrives twice is counted twice, and there may be no room for
that.  A stream that the server writes to before the client has opened it is refused. -/
theorem limits_unsound : (∃ l e, link.ReachableVia (fun l _ => ∀ side, Bounded (l side)) l ∧
      (∀ side, Bounded (l side)) ∧ .resetStream stream0 0 10 ∈ (l .client).sent ∧
      (l .server).party.receive 10 (.resetStream stream0 0 10) = .error e ∧
      e.code = .flowControlError) ∧
    ∃ l e, link.ReachableVia (fun l _ => ∀ side, Bounded (l side)) l ∧ (∀ side, Bounded (l side)) ∧
      .stream ⟨⟨.client, .bi, 0⟩, 0, false, [1]⟩ ∈ (l .server).sent ∧
      (l .client).party.receive 10 (.stream ⟨⟨.client, .bi, 0⟩, 0, false, [1]⟩) = .error e ∧
      e.code = .streamStateError := by
  let afterReset : List (Side × Move) :=
    resetRun ++ [(.server, .receive 10 (.stream ⟨stream1, 0, false, replicate 10 7⟩))]
  let unopened : List (Side × Move) :=
    [(.server, .call (.write ⟨.client, .bi, 0⟩ [1])), (.server, .transmit packet)]
  have hinitial : link.initial small := ⟨_, rfl⟩
  have hcheck : ∀ l (_ : Side × Move), link.ReachableVia (fun l _ => ∀ side, Bounded (l side)) l →
      boundedNow l = true → ∀ side, Bounded (l side) :=
    fun l _ hl => bounded_of_boundedNow hl.reachable
  constructor
  · have hreach := System.ReachableVia.of_runChecked_reachable hcheck (.initial hinitial)
      (rfl : link.runChecked (fun l _ => boundedNow l) small afterReset = some _)
    exact ⟨_, _, hreach, bounded_of_boundedNow hreach.reachable rfl, by decide, rfl, rfl⟩
  · have hreach := System.ReachableVia.of_runChecked_reachable hcheck (.initial hinitial)
      (rfl : link.runChecked (fun l _ => boundedNow l) small unopened = some _)
    exact ⟨_, _, hreach, bounded_of_boundedNow hreach.reachable rfl, by decide, rfl, rfl⟩

end Quac.LimitSoundness
