import Quac.ReceiveLedger

/-!
Credit for received data.  The credit issued to the peer is the window and what was
consumed, unless a stream is stopped and reset: either of the two gives credit for the
same data again.
-/

namespace Quac.ReceiveCredit

open CallAccounts FrameAccounts Identifiers Lib.Tallies Lib.Transition PartySteps
open ReceiveLedger RecvHalf StreamAccess StreamAccounts StreamHalves
open Ledger StreamParty StreamTransmit Streams TransmitAccounts

def ledger : System (State × Ledger) Move :=
  system.observed .empty Ledger.observe

/-- Credit was given exactly for what is consumed, and the peer stayed within it. -/
structure Balance (a : Accounts) (l : Ledger) : Prop where
  credit : a.localMaxData = a.receiveWindow + a.receiveWindowShrinkDebt + l.consumed.total
  received : a.dataRecvd = l.received.total
  le : a.dataRecvd ≤ a.localMaxData

def Unsaturated (a : Accounts) : Prop :=
  a.localMaxData < 2 ^ 64 - 1 ∧ a.receiveWindowShrinkDebt < 2 ^ 64 - 1

/-- The condition: a stream that is stopped is reset only if it was read up to the end,
and the same with a reset stream that is stopped; no final size is below what arrived. -/
def Single (a : Accounts) : Move → Prop
  | .receive _ (.resetStream id _ finalOffset) =>
    ∀ recv, a.recv id = some recv → recv.isReceiving = true → recv.stop ≤ finalOffset ∧
      (recv.stopped = true → recv.assembler.bytesRead = recv.stop)
  | .call (.stop id _) =>
    ∀ recv, a.recv id = some recv → recv.isReceiving = false → recv.assembler.bytesRead = recv.stop
  | _ => True

section Balance

variable {a a' : Accounts} {l l' : Ledger} {id : StreamId}

theorem credit_sum (n : Nat) (hafter : Unsaturated (a.credit n)) :
    (a.credit n).localMaxData + a.receiveWindowShrinkDebt =
      a.localMaxData + (a.credit n).receiveWindowShrinkDebt + n ∧
    a.localMaxData ≤ (a.credit n).localMaxData := by
  unfold Accounts.credit at hafter ⊢
  split_ifs at hafter ⊢ with hdebt
  · dsimp only at hafter ⊢
    have hmin : min (a.localMaxData + (n - a.receiveWindowShrinkDebt)) (2 ^ 64 - 1) =
        a.localMaxData + (n - a.receiveWindowShrinkDebt) := by
      have := hafter.1
      change min _ _ < _ at this
      omega
    change min _ _ + _ = _ ∧ _ ≤ min _ _
    omega
  · dsimp only
    omega

theorem Balance.congr (h : Balance a l) (hcredit : a'.localMaxData = a.localMaxData)
    (hwindow : a'.receiveWindow = a.receiveWindow)
    (hdebt : a'.receiveWindowShrinkDebt = a.receiveWindowShrinkDebt)
    (hrecvd : a'.dataRecvd = a.dataRecvd) : Balance a' l := by
  refine ⟨?_, ?_, ?_⟩
  · rw [hcredit, hwindow, hdebt]
    exact h.credit
  · rw [hrecvd]
    exact h.received
  · rw [hrecvd, hcredit]
    exact h.le

theorem Balance.consume (h : Balance a l) (id : StreamId) {n received consumed : Nat}
    (hreceived : received = l.received.count id) (hconsumed : consumed = l.consumed.count id + n)
    (hsat : Unsaturated (a.credit n)) : Balance (a.credit n) (l.put id received consumed) := by
  have hr := l.received.total_set id received
  have hc := l.consumed.total_set id consumed
  obtain ⟨_, _⟩ := credit_sum n hsat
  have hsame : (a.credit n).receiveWindow = a.receiveWindow ∧
      (a.credit n).dataRecvd = a.dataRecvd := by
    unfold Accounts.credit
    split_ifs <;> exact ⟨rfl, rfl⟩
  have h1 := h.credit
  have h2 := h.received
  have h3 := h.le
  refine ⟨?_, ?_, by omega⟩ <;> simp only [put] <;> omega

theorem Balance.receive (h : Balance a l) (id : StreamId) {n received consumed : Nat}
    (hreceived : received = l.received.count id + n) (hconsumed : consumed = l.consumed.count id)
    (hle : a.dataRecvd + n ≤ a.localMaxData) (hsat : a.localMaxData < 2 ^ 64 - 1) :
    Balance { a with dataRecvd := (a.dataRecvd + n).min (2 ^ 64 - 1) }
      (l.put id received consumed) := by
  have hr := l.received.total_set id received
  have hc := l.consumed.total_set id consumed
  have hmin : (a.dataRecvd + n).min (2 ^ 64 - 1) = a.dataRecvd + n :=
    Nat.min_eq_left (by omega)
  have h1 := h.credit
  have h2 := h.received
  refine ⟨?_, ?_, ?_⟩
  · simp only [put]
    omega
  · simp only [put, hmin]
    omega
  · simp only [hmin]
    exact hle

theorem Balance.resize (h : Balance a l) (receiveWindow : Nat)
    (hsat : Unsaturated (resized a receiveWindow)) : Balance (resized a receiveWindow) l := by
  have h1 := h.credit
  have h2 := h.received
  have h3 := h.le
  unfold Unsaturated resized at hsat
  unfold resized
  split_ifs at hsat ⊢ with hgrow
  · have hmin : (a.localMaxData + (receiveWindow - a.receiveWindow)).min (2 ^ 64 - 1) =
        a.localMaxData + (receiveWindow - a.receiveWindow) :=
      min_eq_left (le_of_not_ge (inf_lt_right.mp hsat.1))
    refine ⟨?_, h2, ?_⟩ <;> simp only [hmin] <;> omega
  · have hmin : (a.receiveWindowShrinkDebt + (a.receiveWindow - receiveWindow)).min (2 ^ 64 - 1) =
        a.receiveWindowShrinkDebt + (a.receiveWindow - receiveWindow) :=
      min_eq_left (le_of_not_ge (inf_lt_right.mp hsat.2))
    refine ⟨?_, h2, h3⟩
    simp only [hmin]
    omega

theorem Balance.announce (h : Balance a l) (id : StreamId) : Balance (a.announce id) l := by
  unfold Accounts.announce
  split_ifs
  · exact h
  · exact h.congr rfl rfl rfl rfl

theorem Balance.put_self (h : Balance a l) (id : StreamId) :
    Balance a (l.put id (l.received.count id) (l.consumed.count id)) := by
  have hr := l.received.total_set id (l.received.count id)
  have hc := l.consumed.total_set id (l.consumed.count id)
  refine ⟨?_, ?_, h.le⟩
  · rw [h.credit]
    simp only [put]
    omega
  · rw [h.received]
    simp only [put]
    omega

theorem wrappingSub_of_le {m n : Nat} (h : n ≤ m) : StreamsState.wrappingSub m n = m - n :=
  if_pos h

end Balance

section Steps

variable {a a' : Accounts} {q q' : Retransmits} {l : Ledger} {id : StreamId}

theorem Called.balance {c : Call} {r : Reply} (h : Called a q c r a' q') (hh : Halves a l)
    (hb : Balance a l) (hsingle : Single a (.call c)) (hsat : Unsaturated a') :
    Balance a' (l.called c r) := by
  cases h with
  | readFailed id => exact hb.put_self id
  | read id _ _ recv assembler =>
    have hset : Balance (a.setRecv id { recv with assembler }) l := hb.congr rfl rfl rfl rfl
    exact hset.consume id rfl rfl hsat
  | readUp id _ _ _ _ _ _ _ _ maxRemote allocated =>
    have hremoved : Balance ((a.removeRecv id).allot maxRemote allocated) l :=
      hb.congr rfl rfl rfl rfl
    exact hremoved.consume id rfl rfl hsat
  | stopped id _ recv h hstopped hfinal =>
    have hentry := hh.entry h
    have hreceiving := Recv.isReceiving_of_finalOffsetUnknown hfinal
    have hset : Balance (a.setRecv id { recv with
        stopped := true, assembler := recv.assembler.clear }) l :=
      hb.congr rfl rfl rfl rfl
    refine hset.consume id rfl ?_ hsat
    have := hentry.read_le
    rw [hentry.reading hreceiving hstopped, hentry.receiving hreceiving]
    omega
  | stoppedUp id _ recv h hstopped _ maxRemote allocated =>
    have hentry := hh.entry h
    have hremoved : Balance ((a.removeRecv id).allot maxRemote allocated) l :=
      hb.congr rfl rfl rfl rfl
    refine hremoved.consume id rfl ?_ hsat
    have := hentry.read_le
    rcases hreceiving : recv.isReceiving with _ | _
    · rw [(hentry.discarded (.inl hreceiving)).1, hsingle recv h hreceiving, Nat.sub_self]
      rfl
    · rw [hentry.reading hreceiving hstopped, hentry.receiving hreceiving]
      omega
  | receiveWindow receiveWindow => exact hb.resize receiveWindow hsat
  | opened | accepted | wrote | finished | reset | maxConcurrent => exact hb.congr rfl rfl rfl rfl
  | _ => exact hb

variable {payloadLen : Nat}

section Frames

variable {recv : Recv} {frame : StreamFrame}

theorem Balance.ingested (h : Balance a l) (payloadLen : Nat)
    (hreceived : l.received.count frame.id = recv.stop)
    (hle : a.dataRecvd + (frame.offset + frame.data.length - recv.stop) ≤ a.localMaxData)
    (hsat : a.localMaxData < 2 ^ 64 - 1) :
    Balance (ingested a frame payloadLen recv) (l.put frame.id
      ((l.received.count frame.id).max (frame.offset + frame.data.length))
      (l.consumed.count frame.id)) := by
  have hset : Balance (a.setRecv frame.id (recv.ingested frame payloadLen)) l :=
    h.congr rfl rfl rfl rfl
  refine hset.receive frame.id ?_ rfl hle hsat
  change max _ _ = _
  omega

/-- The data of a STREAM frame is received and, since the stream is stopped, discarded. -/
theorem Balance.discarded (h : Balance a (l.put frame.id
      ((l.received.count frame.id).max (frame.offset + frame.data.length))
      (l.consumed.count frame.id)))
    (hreceived : l.received.count frame.id = recv.stop)
    (hconsumed : l.consumed.count frame.id = recv.stop)
    (hafter : Unsaturated (a.credit (frame.offset + frame.data.length - recv.stop))) :
    Balance (a.credit (frame.offset + frame.data.length - recv.stop)) (l.put frame.id
      ((l.received.count frame.id).max (frame.offset + frame.data.length))
      ((l.received.count frame.id).max (frame.offset + frame.data.length))) := by
  rw [← l.put_put frame.id ((l.received.count frame.id).max (frame.offset + frame.data.length))
    (l.consumed.count frame.id)]
  refine h.consume frame.id ?_ ?_ hafter
  · simp [put]
  · simp only [put, Tally.set_count_self]
    change max _ _ = _
    omega

theorem Balance.settle {finalOffset : Nat} (h : Balance a l)
    (hreceived : l.received.count id = recv.stop)
    (hconsumed : l.consumed.count id = recv.assembler.bytesRead)
    (hread : recv.assembler.bytesRead ≤ recv.stop) (hstop : recv.stop ≤ finalOffset)
    (hle : a.dataRecvd + (finalOffset - recv.stop) ≤ a.localMaxData)
    (hbefore : a.localMaxData < 2 ^ 64 - 1)
    (hafter : Unsaturated (settle a recv finalOffset)) :
    Balance (settle a recv finalOffset) (l.put id finalOffset finalOffset) := by
  unfold FrameAccounts.settle at hafter ⊢
  rw [wrappingSub_of_le hstop, wrappingSub_of_le (hread.trans hstop)] at hafter ⊢
  split_ifs at hafter ⊢ with hend
  · have hfinal : finalOffset = l.received.count id + (finalOffset - recv.stop) := by omega
    have hput := h.receive id hfinal rfl hle hbefore
    rw [← l.put_put id finalOffset (l.consumed.count id)]
    refine hput.consume id ?_ ?_ hafter
    · simp [put]
    · simp only [put, Tally.set_count_self]
      omega
  · have hself := h.put_self id
    rwa [hreceived, hconsumed, show recv.stop = finalOffset by omega,
      show recv.assembler.bytesRead = finalOffset by omega] at hself

theorem announce_rest (a : Accounts) (id : StreamId) :
    a.announce id = { a with nextRemote := (a.announce id).nextRemote } := by
  unfold Accounts.announce
  split_ifs <;> rfl

theorem Received.balance (h : Received a frame payloadLen a') (hh : Halves a l) (hb : Balance a l)
    (hbefore : Unsaturated a) (hafter : Unsaturated a') :
    Balance a' (l.heard a.recv (.stream frame)) := by
  cases h with
  | dropped h =>
    rw [heard_ignored (.stream frame) h]
    exact hb
  | buffered _ h hreceiving hadmits hstopped =>
    rw [heard_stream h hreceiving, if_neg (by simp [hstopped])]
    have hreceived := (hh.entry h).receiving hreceiving
    exact (hb.ingested payloadLen hreceived hadmits.2.2.2 hbefore.1).announce _
  | discarded _ h hreceiving hadmits hstopped =>
    rw [heard_stream h hreceiving, if_pos hstopped]
    have hreceived := (hh.entry h).receiving hreceiving
    have hconsumed := ((hh.entry h).discarded (.inr hstopped)).1.trans hreceived
    exact (hb.ingested payloadLen hreceived hadmits.2.2.2 hbefore.1).discarded hreceived hconsumed
      hafter
  | closed recv h hreceiving hadmits hstopped _ maxRemote allocated =>
    rw [heard_stream h hreceiving, if_pos hstopped]
    have hreceived := (hh.entry h).receiving hreceiving
    have hconsumed := ((hh.entry h).discarded (.inr hstopped)).1.trans hreceived
    have hremoved : Balance (((ingested a frame payloadLen recv).removeRecv frame.id).allot
        maxRemote allocated) (l.put frame.id
          ((l.received.count frame.id).max (frame.offset + frame.data.length))
          (l.consumed.count frame.id)) :=
      (hb.ingested payloadLen hreceived hadmits.2.2.2 hbefore.1).congr rfl rfl rfl rfl
    exact hremoved.discarded hreceived hconsumed hafter

theorem ReceivedReset.balance {errorCode finalOffset : Nat}
    (h : ReceivedReset a id errorCode finalOffset a') (hh : Halves a l) (hb : Balance a l)
    (hsingle : Single a (.receive payloadLen (.resetStream id errorCode finalOffset)))
    (hbefore : Unsaturated a) (hafter : Unsaturated a') :
    Balance a' (l.heard a.recv (.resetStream id errorCode finalOffset)) := by
  have hheard : ∀ recv, a.recv id = some recv → recv.isReceiving = true →
      l.heard a.recv (.resetStream id errorCode finalOffset) =
        l.put id finalOffset finalOffset := by
    intro recv h hreceiving
    have hmax : (l.received.count id).max finalOffset = finalOffset := by
      rw [(hh.entry h).receiving hreceiving]
      exact Nat.max_eq_right (hsingle recv h hreceiving).1
    rw [heard_reset h hreceiving, hmax]
  cases h with
  | redundant h =>
    rw [heard_ignored (.resetStream id errorCode finalOffset) h]
    exact hb
  | reset recv h hreceiving hadmits hstopped =>
    rw [hheard recv h hreceiving]
    have hentry := hh.entry h
    have hset : Balance (a.setRecv id (resetHalf recv errorCode finalOffset)) l :=
      hb.congr rfl rfl rfl rfl
    refine (hset.announce id).settle (hentry.receiving hreceiving)
      (hentry.reading hreceiving hstopped) hentry.read_le (hsingle recv h hreceiving).1 ?_ ?_ hafter
    · rw [announce_rest]
      exact hadmits.2.2.2
    · rw [announce_rest]
      exact hbefore.1
  | closed recv h hreceiving hadmits hstopped maxRemote allocated =>
    rw [hheard recv h hreceiving]
    obtain ⟨hstop, hread⟩ := hsingle recv h hreceiving
    have hentry := hh.entry h
    have hreceived := hentry.receiving hreceiving
    -- The half was stopped, so that all it has received is discarded.
    have hconsumed : l.consumed.count id = recv.assembler.bytesRead := by
      rw [(hentry.discarded (.inr hstopped)).1, hreceived, hread hstopped]
    have hremoved : Balance ((a.removeRecv id).allot maxRemote allocated) l :=
      hb.congr rfl rfl rfl rfl
    refine (hremoved.announce id).settle hreceived hconsumed hentry.read_le hstop ?_ ?_ hafter
    · rw [announce_rest]
      exact hadmits.2.2.2
    · rw [announce_rest]
      exact hbefore.1

end Frames

theorem Heard.balance {frame : StreamsFrame} (h : Heard a payloadLen frame a')
    (hh : Halves a l) (hb : Balance a l) (hsingle : Single a (.receive payloadLen frame))
    (hbefore : Unsaturated a) (hafter : Unsaturated a') : Balance a' (l.heard a.recv frame) := by
  cases h with
  | stream _ _ _ h => exact Received.balance h hh hb hbefore hafter
  | resetStream _ _ _ _ _ h =>
    exact ReceivedReset.balance h hh hb hsingle hbefore hafter
  | stopSending id => exact hb.announce id
  | maxStreamData id limit half =>
    have hset : Balance (a.setSend id (raise half limit)) l := hb.congr rfl rfl rfl rfl
    exact hset.announce id
  | maxStreamDataClosed id => exact hb.announce id
  | maxData | maxStreams => exact hb.congr rfl rfl rfl rfl
  | _ => exact hb

theorem Fate.balance (h : Fate a a') (hb : Balance a l) : Balance a' l := by
  cases h <;> exact hb.congr rfl rfl rfl rfl

theorem Sends.balance {frames : List StreamsFrame} (h : Sends q a frames a') (hb : Balance a l) :
    Balance a' l := by
  induction h with
  | nil => exact hb
  | cons h _ ih =>
    apply ih
    cases h with
    | stream | maxData | maxStreamData | maxStreams => exact hb.congr rfl rfl rfl rfl
    | _ => exact hb

end Steps

/-- The steps of a run in which no data is given credit for twice, and no counter reaches
its maximum. -/
def Allowed (s : State × Ledger) (m : Move) : Prop :=
  Single (accounts s.1.party.streams) m ∧ Unsaturated (accounts s.1.party.streams) ∧
    ∀ t, step s.1 m = some t → Unsaturated (accounts t.party.streams)

structure Inv (s : State × Ledger) : Prop where
  tidy : Tidy s.1.party
  halves : Halves (accounts s.1.party.streams) s.2
  balance : Balance (accounts s.1.party.streams) s.2

variable {s : State × Ledger}

theorem inv_initial (h : ledger.initial s) : Inv s := by
  obtain ⟨⟨side, uni, bi, sendWindow, receiveWindow, streamWindow, params, hs⟩, hempty⟩ := h
  obtain ⟨hfresh, heq⟩ := accounts_new side uni bi sendWindow receiveWindow streamWindow params
  rcases s with ⟨s, l⟩
  cases hs
  cases hempty
  refine ⟨⟨hfresh, ?_⟩, ?_, ?_⟩
  · rw [heq]
    exact (begins_initial _ _ _ _ _).ordered
  · rw [heq]
    exact halves_of_begins (begins_initial _ _ _ _ _)
  · rw [heq]
    exact ⟨rfl, rfl, Nat.zero_le _⟩

theorem inv_step {s' : State × Ledger} {m : Move} (hs : Inv s) (hm : Allowed s m)
    (h : ledger.step s m = some s') : Inv s' := by
  obtain ⟨hstep, hledger⟩ := System.observed_step_eq_some h
  obtain ⟨hsingle, hbefore, hafter⟩ := hm
  have hafter := hafter s'.1 hstep
  obtain ⟨htidy, hhalves, hbalance⟩ := hs
  rcases s' with ⟨t, l⟩
  subst hledger
  obtain ⟨htidy', hdone⟩ := step_done htidy hstep
  cases hdone with
  | call hcalled =>
    exact ⟨htidy', Called.halves hcalled hhalves,
      Called.balance hcalled hhalves hbalance hsingle hafter⟩
  | receive _ hheard =>
    exact ⟨htidy', Heard.halves hheard hhalves,
      Heard.balance hheard hhalves hbalance hsingle hbefore hafter⟩
  | transmit _ hsends =>
    exact ⟨htidy', Sends.halves hsends hhalves, Sends.balance hsends hbalance⟩
  | acked _ hacked =>
    exact ⟨htidy', hhalves.keeps (Fate.keepsRecv hacked.fate), Fate.balance hacked.fate hbalance⟩
  | lost _ hlost =>
    exact ⟨htidy', hhalves.keeps (Fate.keepsRecv hlost.fate), Fate.balance hlost.fate hbalance⟩

/-- Credit is given for each byte once, when it is read or discarded; so what is buffered
fits into the window. -/
theorem credit_conserved {s : State × Ledger} (hs : ledger.ReachableVia Allowed s) :
    s.1.party.streams.localMaxData = s.1.party.streams.receiveWindow +
      s.1.party.streams.receiveWindowShrinkDebt + s.2.consumed.total ∧
    (∀ id, s.2.consumed.count id ≤ s.2.received.count id) ∧
    s.2.consumed.total ≤ s.1.party.streams.dataRecvd ∧
    ∀ ids : Finset StreamId, ∑ id ∈ ids, buffered s.1.party.streams id ≤
      s.1.party.streams.receiveWindow + s.1.party.streams.receiveWindowShrinkDebt := by
  obtain ⟨-, hhalves, hbalance⟩ := hs.invariant (fun _ => inv_initial) fun _ _ _ => inv_step
  have hcredit : s.1.party.streams.localMaxData = _ := hbalance.credit
  have hrecvd : s.1.party.streams.dataRecvd = _ := hbalance.received
  have hle : s.1.party.streams.dataRecvd ≤ s.1.party.streams.localMaxData := hbalance.le
  have htotal := Tally.total_le_total hhalves.le
  refine ⟨hcredit, hhalves.le, by omega, fun ids => ?_⟩
  have hrest := Tally.sum_add_total_le hhalves.le ids
  have hsum : ∑ id ∈ ids, buffered s.1.party.streams id ≤
      ∑ id ∈ ids, (s.2.received.count id - s.2.consumed.count id) :=
    Finset.sum_le_sum fun id _ => hhalves.buffered_le id
  have hwindow : (accounts s.1.party.streams).receiveWindow = s.1.party.streams.receiveWindow := rfl
  have hdebt : (accounts s.1.party.streams).receiveWindowShrinkDebt =
    s.1.party.streams.receiveWindowShrinkDebt := rfl
  omega

def tenBytes : Move :=
  .receive 10 (.stream ⟨⟨.client, .uni, 0⟩, 0, false, List.replicate 10 7⟩)

theorem allowed_of_step {m : Move} {t : State} (h : step s.1 m = some t)
    (hsingle : Single (accounts s.1.party.streams) m)
    (hbefore : Unsaturated (accounts s.1.party.streams))
    (hafter : Unsaturated (accounts t.party.streams)) : Allowed s m := by
  refine ⟨hsingle, hbefore, fun t' ht' => ?_⟩
  cases h.symm.trans ht'
  exact hafter

/-- Four of ten bytes are read. -/
theorem read_conserved : ∃ s, ledger.ReachableVia Allowed s ∧ s.2.consumed.total = 4 ∧
    s.1.party.streams.localMaxData = s.1.party.streams.receiveWindow +
      s.1.party.streams.receiveWindowShrinkDebt + s.2.consumed.total := by
  have hinitial : ledger.ReachableVia Allowed (server, .empty) :=
    .initial ⟨⟨_, _, _, _, _, _, _, rfl⟩, rfl⟩
  have hreceived := hinitial.step (a := tenBytes)
    (allowed_of_step rfl trivial ⟨by decide, by decide⟩ ⟨by decide, by decide⟩) rfl
  have hread := hreceived.step (a := Move.call (.read ⟨.client, .uni, 0⟩ [4]))
    (allowed_of_step rfl trivial ⟨by decide, by decide⟩ ⟨by decide, by decide⟩) rfl
  exact ⟨_, hread, by decide, (credit_conserved hread).1⟩

/-- The ten bytes are given credit for twice when their stream is stopped and then reset,
and when it is reset and then stopped.  A FIN before the end of the data and a reset
at the same place leave the rest without credit. -/
theorem reset_not_conserved :
    (∃ s, ledger.Reachable s ∧ s.2.consumed.total = 10 ∧ s.1.party.streams.localMaxData =
      s.1.party.streams.receiveWindow + s.1.party.streams.receiveWindowShrinkDebt + 20) ∧
    (∃ s, ledger.Reachable s ∧ s.2.consumed.total = 10 ∧ s.1.party.streams.localMaxData =
      s.1.party.streams.receiveWindow + s.1.party.streams.receiveWindowShrinkDebt + 20) ∧
    ∃ s, ledger.Reachable s ∧ s.2.consumed.total = 10 ∧ s.1.party.streams.localMaxData =
      s.1.party.streams.receiveWindow + s.1.party.streams.receiveWindowShrinkDebt + 3 := by
  let id : StreamId := ⟨.client, .uni, 0⟩
  have hinitial : ledger.Reachable (server, .empty) :=
    .initial ⟨⟨_, _, _, _, _, _, _, rfl⟩, rfl⟩
  refine ⟨?_, ?_, ?_⟩
  · refine hinitial.exists_of_run
      [tenBytes, .call (.stop id 0), .receive 10 (.resetStream id 0 10)] ?_
    exact ⟨_, rfl, by decide, by decide⟩
  · refine hinitial.exists_of_run
      [tenBytes, .receive 10 (.resetStream id 0 10), .call (.stop id 0)] ?_
    exact ⟨_, rfl, by decide, by decide⟩
  · refine hinitial.exists_of_run [tenBytes, .receive 10 (.stream ⟨id, 3, true, []⟩),
      .call (.read id [3]), .receive 10 (.resetStream id 0 3)] ?_
    exact ⟨_, rfl, by decide, by decide⟩

end Quac.ReceiveCredit
