import Quac.Lib.Tallies
import Quac.RemoteCount
import Quac.TransmitShape

/-!
A client whose early data is rejected starts again as if it had sent none.  It does where
nothing was written to a stream and the remembered limit of the connection was not above
the new one: a rejection takes back neither the unacknowledged bytes nor the limit.
-/

namespace Quac.FreshStart

open EarlyData Identifiers Lib.Tallies Lib.Transition RemoteBooks RemoteCount SendData SendHalf
open Function
open StreamAccess StreamAccounts
open StreamParty hiding State step system
open StreamSession StreamTransmit Streams StreamsState TransmitShape

variable {s s' t : StreamsState} {id : StreamId}

variable {half : Send}

/-- The bytes of a stream that were written and are not acknowledged. -/
def outstanding (s : StreamsState) (id : StreamId) : Nat :=
  match s.send id with
  | some (some half) => if half.isReset then 0 else half.pending.unacked
  | _ => 0

def Balanced (s : StreamsState) : Prop :=
  ∃ tally : Tally StreamId, tally.count = outstanding s ∧ tally.total = s.unackedData

/-- Besides the balance, what keeps it: the entries are where the counters say, and nothing
was acknowledged. -/
structure Ledger (s : StreamsState) : Prop where
  seated : Seated s
  acks : ∀ id half, s.send id = some (some half) → half.pending.acks = .empty
  balanced : Balanced s

theorem Balanced.congr (h : Balanced s) (hsend : outstanding s' = outstanding s)
    (hunacked : s'.unackedData = s.unackedData) : Balanced s' := by
  obtain ⟨tally, hcount, htotal⟩ := h
  exact ⟨tally, hcount.trans hsend.symm, htotal.trans hunacked.symm⟩

theorem Balanced.add {n : Nat} (h : Balanced s)
    (hsend : outstanding s' = update (outstanding s) id (outstanding s id + n))
    (hunacked : s'.unackedData = s.unackedData + n) : Balanced s' := by
  obtain ⟨tally, hcount, _⟩ := h
  refine ⟨tally.set id (outstanding s id + n), ?_, ?_⟩
  · rw [hsend, ← hcount]
    rfl
  · have hset := tally.total_set id (outstanding s id + n)
    rw [hcount] at hset
    omega

theorem balanced_iff_of_forall (h : ∀ id, outstanding s id = 0) :
    Balanced s ↔ s.unackedData = 0 := by
  have hzero : outstanding s = (Tally.empty : Tally StreamId).count := funext h
  constructor
  · rintro ⟨tally, hcount, htotal⟩
    rw [← htotal]
    refine Finset.sum_eq_zero fun id _ => ?_
    rw [hcount]
    exact h id
  · exact fun hunacked => ⟨.empty, hzero.symm, hunacked.symm⟩

theorem outstanding_setSend (s : StreamsState) (id : StreamId) (half : Send) :
    outstanding (s.setSend id half) = update (outstanding s) id
      (if half.isReset then 0 else half.pending.unacked) := by
  funext j
  rcases eq_or_ne j id with rfl | hne
  · simp [outstanding, setSend]
  · simp [outstanding, setSend, hne]

theorem outstanding_getSend (h : s.getSend id = some half) :
    outstanding s id = if half.isReset then 0 else half.pending.unacked := by
  unfold outstanding
  rcases send_of_getSend h with hsend | ⟨hsend, rfl⟩
  · rw [hsend]
  · rw [hsend]
    rfl

theorem acks_getSend (h : ∀ id half, s.send id = some (some half) → half.pending.acks = .empty)
    (hget : s.getSend id = some half) : half.pending.acks = .empty := by
  rcases send_of_getSend hget with hsend | ⟨-, rfl⟩
  · exact h id half hsend
  · rfl

theorem acks_setSend (h : ∀ id half, s.send id = some (some half) → half.pending.acks = .empty)
    (hhalf : half.pending.acks = .empty) (j : StreamId) (half' : Send)
    (hsend : (s.setSend id half).send j = some (some half')) : half'.pending.acks = .empty := by
  rcases eq_or_ne j id with rfl | hne
  · simp only [setSend, update_self, Option.some.injEq] at hsend
    rw [← hsend]
    exact hhalf
  · simp only [setSend, update_of_ne hne] at hsend
    exact h j half' hsend

theorem Ledger.congr (h : Ledger s) (hside : s'.side = s.side) (hnext : s'.next = s.next)
    (hmax : s'.maxRemote = s.maxRemote) (hsend : s'.send = s.send)
    (hunacked : s'.unackedData = s.unackedData) : Ledger s' := by
  refine ⟨⟨fun id => ?_, fun id => ?_⟩, fun id half => ?_, ?_⟩
  · rw [hside, hsend]
    unfold Own
    rw [hside, hnext]
    exact h.seated.ours id
  · rw [hside, hsend, hmax]
    exact h.seated.theirs id
  · rw [hsend]
    exact h.acks id half
  · refine h.balanced.congr ?_ hunacked
    unfold outstanding
    rw [hsend]

theorem Ledger.set {half' : Send} (h : Ledger s) (hget : s.getSend id = some half)
    (hreset : half'.isReset = half.isReset) (hacks : half'.pending.acks = half.pending.acks)
    (hunacked : half'.pending.unacked = half.pending.unacked) : Ledger (s.setSend id half') where
  seated := (seats_setSend (send_ne_none hget) half').seated h.seated
  acks := acks_setSend h.acks (hacks.trans (acks_getSend h.acks hget))
  balanced := by
    refine h.balanced.congr ?_ rfl
    rw [outstanding_setSend, hreset, hunacked, ← outstanding_getSend hget, update_eq_self]

theorem Ledger.openStream (h : Ledger s) (dir : Dir) : Ledger (openStream s false dir).2 := by
  have hseated := seated_openStream h.seated dir
  have hopens := opens s dir
  generalize StreamAccess.openStream s false dir = r at hopens hseated ⊢
  cases hopens with
  | refused => exact h.congr rfl rfl rfl rfl rfl
  | opened id hid =>
    refine ⟨hseated, fun j half hj => ?_, h.balanced.congr ?_ rfl⟩
    · rcases Lib.Registry.update_some_eq_some.mp hj with ⟨-, hnew⟩ | ⟨-, hold⟩
      · cases hnew
      · exact h.acks j half hold
    · funext j
      unfold outstanding
      dsimp only
      rcases eq_or_ne j id with rfl | hne
      · rw [update_self, hid, h.seated.send_next]
      · rw [update_of_ne hne]

theorem unacked_write (b : SendBuffer) (data : Bytes) (h : b.acks = .empty) :
    (b.write data).unacked = b.unacked + data.length := by
  simp [SendBuffer.unacked, SendBuffer.write, h, Quac.Ranges.RangeSet.total,
    Quac.Ranges.RangeSet.empty]

theorem Ledger.writeStream (h : Ledger s) (id : StreamId) (data : Bytes) :
    Ledger (writeStream s false id data).2 := by
  unfold StreamAccess.writeStream
  rw [if_neg Bool.false_ne_true]
  rcases hget : s.getSend id with _ | half
  · exact h
  have hset := h.set hget rfl rfl rfl
  have hget' : (s.setSend id half).getSend id = some half := by
    simp [getSend, setSend]
  dsimp only
  by_cases hlimit : s.writeLimit = 0
  · split_ifs
    · exact hset
    · have hblocked : Ledger ((s.setSend id half).setSend id { half with
          connectionBlocked := true }) := hset.set hget' rfl rfl rfl
      exact hblocked.congr rfl rfl rfl rfl rfl
  · rw [if_neg hlimit]
    split
    · exact hset
    · rename_i written half' hwrite
      obtain ⟨hready, -, -, hlen, heq⟩ := Send.write_eq_ok hwrite
      have hacks := acks_getSend h.acks hget
      have hreset : half.isReset = false := by simp [Send.isReset, hready]
      -- The stream has as many bytes more outstanding as were written.
      have hpending : half'.isReset = false ∧ half'.pending.acks = .empty ∧
          half'.pending.unacked = half.pending.unacked + written.bytes := by
        rw [heq]
        split_ifs with hempty
        · have hzero : written.bytes = 0 := by
            rw [List.isEmpty_iff, ← List.length_eq_zero_iff, List.length_take] at hempty
            omega
          rw [hzero]
          exact ⟨hreset, hacks, rfl⟩
        · refine ⟨hreset, hacks, ?_⟩
          rw [unacked_write _ _ hacks, List.length_take, Nat.min_eq_left hlen]
      obtain ⟨hreset', hacks', hunacked'⟩ := hpending
      have hsent : outstanding (s.setSend id half') = update (outstanding s) id
          (outstanding s id + written.bytes) := by
        rw [outstanding_setSend, outstanding_getSend hget, hreset, hreset', hunacked']
        rfl
      have hagain : (s.setSend id half).setSend id half' = s.setSend id half' := by
        simp [setSend]
      rw [hagain]
      have hseated := (seats_setSend (send_ne_none hget) half').seated h.seated
      exact ⟨⟨hseated.ours, hseated.theirs⟩, acks_setSend h.acks hacks', h.balanced.add hsent rfl⟩

theorem Ledger.finishStream (h : Ledger s) (id : StreamId) : Ledger (finishStream s id).2 := by
  unfold StreamAccess.finishStream
  rcases hget : s.getSend id with _ | half
  · exact h
  dsimp only
  rcases hfinish : half.finish with e | half'
  · exact h.set hget rfl rfl rfl
  · have hpending : half'.isReset = half.isReset ∧ half'.pending = half.pending := by
      unfold Send.finish at hfinish
      split at hfinish
      · cases hfinish
      · split_ifs at hfinish with hready
        cases hfinish
        exact ⟨by simp [Send.isReset, hready], rfl⟩
    have hset := h.set hget hpending.1 (congrArg _ hpending.2) (congrArg _ hpending.2)
    exact hset.congr rfl rfl rfl rfl rfl

structure Passed (s s' : StreamsState) : Prop where
  maxData : s'.maxData = s.maxData
  sendWindow : s'.sendWindow = s.sendWindow
  unackedData : s'.unackedData = s.unackedData
  send : ∀ id, s'.send id = s.send id ∨ ∃ half half', s.send id = some (some half) ∧
    s'.send id = some (some half') ∧ half'.isReset = half.isReset ∧
    half'.pending.acks = half.pending.acks ∧ half'.pending.unacked = half.pending.unacked

theorem Passed.trans {s'' : StreamsState} (h : Passed s s') (h' : Passed s' s'') :
    Passed s s'' where
  maxData := h'.maxData.trans h.maxData
  sendWindow := h'.sendWindow.trans h.sendWindow
  unackedData := h'.unackedData.trans h.unackedData
  send id := by
    rcases h'.send id with heq | ⟨half, half', hid, hid', hreset, hacks, hunacked⟩
    · rw [heq]
      exact h.send id
    · rcases h.send id with heq | ⟨first, _, hfirst, hid₁, hreset₁, hacks₁, hunacked₁⟩
      · rw [heq] at hid
        exact .inr ⟨half, half', hid, hid', hreset, hacks, hunacked⟩
      · cases hid.symm.trans hid₁
        exact .inr ⟨first, half', hfirst, hid', hreset.trans hreset₁, hacks.trans hacks₁,
          hunacked.trans hunacked₁⟩

theorem pollTransmit_unacked (b : SendBuffer) (maxLen : Nat) :
    (b.pollTransmit maxLen).2.2.acks = b.acks ∧
      (b.pollTransmit maxLen).2.2.unacked = b.unacked := by
  unfold SendBuffer.pollTransmit
  split
  · exact ⟨rfl, rfl⟩
  · exact ⟨rfl, rfl⟩

theorem passed_writeStreamFrame {maxSize : Nat} {fair : Bool} {w : Writer}
    (h : w.streams.send id = some (some half)) :
    Passed w.streams (writeStreamFrame maxSize fair w id half).2.streams := by
  obtain ⟨_, _, _, _, _, _, hpoll, -, hhalf, heq, -, -⟩ :=
    writeStreamFrame_spec maxSize fair w id half
  obtain ⟨hacks, hunacked⟩ := pollTransmit_unacked half.pending
    (maxSize - w.len - 1 - varIntSize id.toNat)
  rw [hpoll] at hacks hunacked
  rw [heq, hhalf]
  refine ⟨rfl, rfl, rfl, fun j => ?_⟩
  rcases eq_or_ne j id with rfl | hne
  · refine .inr ⟨half, _, h, update_self _ _ _, rfl, hacks, hunacked⟩
  · exact .inl (update_of_ne hne _ _)

theorem passed_transmit {p p' : Party} {space : PacketSpace} {frames : List StreamsFrame}
    (h : p.transmit space = some (frames, p')) : Passed p.streams p'.streams := by
  obtain ⟨w, _, _, hcontrol, rfl, -, -, rfl⟩ :=
    (announced_rule _).transmit_eq_some ⟨rfl, fun _ h => h⟩ h
  have hstart : Passed p.streams w.streams := by
    rw [hcontrol.streams]
    exact ⟨rfl, rfl, rfl, fun _ => .inl rfl⟩
  refine writeStreamFrames_invariant (fun w => Passed p.streams w.streams) ?_ ?_ _ hstart
  · intro w q queue hw _ _
    exact { hw with }
  · intro w q queue half hw _ _ hsend _
    have htaken : Passed p.streams (taken w queue).streams :=
      { hw with }
    exact htaken.trans (passed_writeStreamFrame hsend)

theorem Ledger.passed (h : Ledger s) (hlevel : Level s s') (hpassed : Passed s s') : Ledger s' where
  seated := by
    refine (Seats.mk hlevel.side hlevel.next ?_ fun id hid => .inl ?_).seated h.seated
    · exact fun dir => le_of_eq (congrFun hlevel.maxRemote dir).symm
    · exact fun hnone => hid ((hlevel.send id).mpr hnone)
  acks id half hid := by
    rcases hpassed.send id with heq | ⟨half₀, half', hhalf, hid', -, hacks, -⟩
    · rw [heq] at hid
      exact h.acks id half hid
    · cases hid.symm.trans hid'
      exact hacks.trans (h.acks id half₀ hhalf)
  balanced := by
    refine h.balanced.congr (funext fun id => ?_) hpassed.unackedData
    unfold outstanding
    rcases hpassed.send id with heq | ⟨_, _, hid, hid', hreset, -, hunacked⟩
    · rw [heq]
    · rw [hid, hid']
      dsimp only
      rw [hreset, hunacked]

inductive SendCall
  | openStream (dir : Dir)
  | write (id : StreamId) (data : Bytes)
  | finish (id : StreamId)

def answer (s : StreamsState) : SendCall → Reply × StreamsState
  | .openStream dir =>
    let (id, s) := openStream s false dir
    (.opened id, s)
  | .write id data =>
    let (result, s) := writeStream s false id data
    (.wrote result, s)
  | .finish id =>
    let (result, s) := finishStream s id
    (.finished result, s)

def answers (s : StreamsState) : List SendCall → List Reply × StreamsState
  | [] => ([], s)
  | call :: rest =>
    let (reply, s) := answer s call
    let (replies, s) := answers s rest
    (reply :: replies, s)

structure Alike (s t : StreamsState) : Prop where
  side : s.side = t.side
  next : s.next = t.next
  max : s.max = t.max
  maxData : s.maxData = t.maxData
  dataSent : s.dataSent = t.dataSent
  unackedData : s.unackedData = t.unackedData
  sendWindow : s.sendWindow = t.sendWindow
  maxSendData : s.maxSendData = t.maxSendData
  send : s.send = t.send

theorem Alike.writeLimit (h : Alike s t) : s.writeLimit = t.writeLimit := by
  unfold StreamsState.writeLimit
  rw [h.maxData, h.dataSent, h.sendWindow, h.unackedData]

theorem Alike.getSend (h : Alike s t) (id : StreamId) : s.getSend id = t.getSend id := by
  unfold StreamsState.getSend
  rw [h.send, h.maxSendData]

theorem Alike.setSend (h : Alike s t) (id : StreamId) (half : Send) :
    Alike (s.setSend id half) (t.setSend id half) := by
  have hsend : (s.setSend id half).send = (t.setSend id half).send := by
    unfold StreamsState.setSend
    rw [h.send]
  exact { h with send := hsend }

theorem Alike.openStream (h : Alike s t) (dir : Dir) :
    (openStream s false dir).1 = (openStream t false dir).1 ∧
      Alike (openStream s false dir).2 (openStream t false dir).2 := by
  unfold StreamAccess.openStream
  rw [if_neg Bool.false_ne_true, if_neg Bool.false_ne_true]
  by_cases hmax : s.max dir ≤ s.next dir
  · rw [if_pos hmax, if_pos (by rwa [← h.max, ← h.next])]
    exact ⟨rfl, { h with }⟩
  · rw [if_neg hmax, if_neg (by rwa [← h.max, ← h.next])]
    dsimp only
    have hid : (⟨s.side, dir, s.next dir⟩ : StreamId) = ⟨t.side, dir, t.next dir⟩ := by
      rw [h.side, h.next]
    rw [hid]
    refine ⟨rfl, ?_⟩
    obtain ⟨u, hu⟩ : ∃ u, u = { s with next := update s.next dir (s.next dir + 1) } := ⟨_, rfl⟩
    obtain ⟨v, hv⟩ : ∃ v, v = { t with next := update t.next dir (t.next dir + 1) } := ⟨_, rfl⟩
    have halike : Alike u v := by
      rw [hu, hv]
      exact { h with next := by simp only [h.next] }
    rw [← hu, ← hv]
    have hsend : (u.insert false ⟨t.side, dir, t.next dir⟩).send =
        (v.insert false ⟨t.side, dir, t.next dir⟩).send := by
      funext j
      rw [send_insert, send_insert, halike.send]
    have hins := insert_rest (s := u) false ⟨t.side, dir, t.next dir⟩
    have hins' := insert_rest (s := v) false ⟨t.side, dir, t.next dir⟩
    refine ⟨?_, ?_, ?_, ?_, ?_, ?_, ?_, ?_, hsend⟩ <;> rw [hins, hins']
    · exact halike.side
    · exact halike.next
    · exact halike.max
    · exact halike.maxData
    · exact halike.dataSent
    · exact halike.unackedData
    · exact halike.sendWindow
    · exact halike.maxSendData

theorem Alike.writeStream (h : Alike s t) (id : StreamId) (data : Bytes) :
    (writeStream s false id data).1 = (writeStream t false id data).1 ∧
      Alike (writeStream s false id data).2 (writeStream t false id data).2 := by
  unfold StreamAccess.writeStream
  rw [if_neg Bool.false_ne_true, if_neg Bool.false_ne_true, h.writeLimit, h.getSend]
  rcases t.getSend id with _ | half
  · exact ⟨rfl, h⟩
  have hset := h.setSend id half
  dsimp only
  by_cases hlimit : t.writeLimit = 0
  · split_ifs
    · exact ⟨rfl, hset⟩
    · have hagain := hset.setSend id { half with connectionBlocked := true }
      exact ⟨rfl, { hagain with }⟩
  · rw [if_neg hlimit, if_neg hlimit]
    rcases half.write data t.writeLimit with e | ⟨written, half'⟩
    · exact ⟨rfl, hset⟩
    · have hagain := hset.setSend id half'
      refine ⟨rfl, { hagain with dataSent := ?_, unackedData := ?_ }⟩
      · exact congrArg (· + written.bytes) h.dataSent
      · exact congrArg (· + written.bytes) h.unackedData

theorem Alike.finishStream (h : Alike s t) (id : StreamId) :
    (finishStream s id).1 = (finishStream t id).1 ∧
      Alike (finishStream s id).2 (finishStream t id).2 := by
  unfold StreamAccess.finishStream
  rw [h.getSend]
  rcases t.getSend id with _ | half
  · exact ⟨rfl, h⟩
  dsimp only
  rcases half.finish with e | half'
  · exact ⟨rfl, h.setSend id half⟩
  · have hset := h.setSend id half'
    exact ⟨rfl, { hset with }⟩

theorem Alike.answer (h : Alike s t) (call : SendCall) :
    (answer s call).1 = (answer t call).1 ∧ Alike (answer s call).2 (answer t call).2 := by
  cases call with
  | openStream dir => exact ⟨congrArg Reply.opened (h.openStream dir).1, (h.openStream dir).2⟩
  | write id data =>
    exact ⟨congrArg Reply.wrote (h.writeStream id data).1, (h.writeStream id data).2⟩
  | finish id => exact ⟨congrArg Reply.finished (h.finishStream id).1, (h.finishStream id).2⟩

theorem Alike.answers (h : Alike s t) (calls : List SendCall) :
    (answers s calls).1 = (answers t calls).1 := by
  induction calls generalizing s t with
  | nil => rfl
  | cons call _ ih =>
    obtain ⟨hreply, halike⟩ := h.answer call
    exact congrArg₂ List.cons hreply (ih halike)

theorem Ledger.answers (h : Ledger s) (calls : List SendCall) : Ledger (answers s calls).2 := by
  induction calls generalizing s with
  | nil => exact h
  | cons call _ ih =>
    refine ih ?_
    cases call with
    | openStream dir => exact h.openStream dir
    | write id data => exact h.writeStream id data
    | finish id => exact h.finishStream id

section Early

structure Config where
  maxRemoteUni : Nat
  maxRemoteBi : Nat
  sendWindow : Nat
  receiveWindow : Nat
  streamReceiveWindow : Nat

def client (config : Config) (params : StreamsState.PeerLimits) : Party :=
  .new .client config.maxRemoteUni config.maxRemoteBi config.sendWindow config.receiveWindow
    config.streamReceiveWindow params

def resumed (config : Config) (remembered : StreamsState.PeerLimits) : System Party Operation where
  initial p := p = client config remembered
  step := StreamSession.step

def early (_ : Party) : Operation → Bool
  | .call (.openStream _) | .transmit _ => true
  | .call (.write id _) | .call (.finish id) => decide (id.initiator = .client)
  | _ => false

variable {config : Config} {remembered params : StreamsState.PeerLimits} {p p' : Party}

/-- What early data leaves behind. -/
structure Inv (config : Config) (remembered : StreamsState.PeerLimits) (s : StreamsState) :
    Prop where
  side : s.side = .client
  maxData : s.maxData = remembered.initialMaxData
  sendWindow : s.sendWindow = config.sendWindow
  maxRemote : s.maxRemote = remoteLimits config.maxRemoteUni config.maxRemoteBi
  theirs : ∀ id, id.initiator = .server → s.send id =
    if id.dir = .bi ∧ id.index < config.maxRemoteBi then some none else none
  present : ∀ id, Own s id → Present s id
  ledger : Ledger s

theorem Inv.setSend (h : Inv config remembered s) (hid : id.initiator = .client) (half : Send)
    (hs : Ledger s')
    (heq : s' = { s.setSend id half with
      pending := s'.pending
      connectionBlocked := s'.connectionBlocked
      dataSent := s'.dataSent
      unackedData := s'.unackedData }) : Inv config remembered s' := by
  have hsend : s'.send = update s.send id (some (some half)) := by rw [heq]; rfl
  have hrecv : s'.recv = s.recv := by rw [heq]; rfl
  refine ⟨?_, ?_, ?_, ?_, fun j hj => ?_, fun j hj => ?_, hs⟩
  · rw [heq]
    exact h.side
  · rw [heq]
    exact h.maxData
  · rw [heq]
    exact h.sendWindow
  · rw [heq]
    exact h.maxRemote
  · have hne : j ≠ id := by
      rintro rfl
      cases hj.symm.trans hid
    rw [hsend, update_of_ne hne]
    exact h.theirs j hj
  · have hown : Own s j := by
      rw [heq] at hj
      exact hj
    obtain ⟨hpresent, hrecvs⟩ := h.present j hown
    refine ⟨?_, ?_⟩
    · rw [hsend]
      rcases eq_or_ne j id with rfl | hne
      · simp
      · rw [update_of_ne hne]
        exact hpresent
    · rw [hrecv]
      exact hrecvs

theorem send_setParams
    (h : ∀ id, id.initiator = s.side.peer → ∀ half, s.send id ≠ some (some half)) :
    (s.setParams params).send = s.send := by
  funext j
  change (if j.initiator = s.side.peer ∧ j.dir = .bi ∧ j.index < s.maxRemote .bi then
    (s.send j).map _ else s.send j) = s.send j
  split_ifs with hj
  · rcases hsend : s.send j with _ | _ | half
    · rfl
    · rfl
    · exact absurd hsend (h j hj.1 half)
  · rfl

structure Blank (config : Config) (s : StreamsState) : Prop where
  side : s.side = .client
  maxData : s.maxData = 0
  dataSent : s.dataSent = 0
  unackedData : s.unackedData = 0
  sendStreams : s.sendStreams = 0
  connectionBlocked : s.connectionBlocked = []
  pending : s.pending = .new
  next : s.next = fun _ => 0
  sendWindow : s.sendWindow = config.sendWindow
  maxRemote : s.maxRemote = remoteLimits config.maxRemoteUni config.maxRemoteBi
  send : ∀ id, s.send id =
    if id.initiator = .server ∧ id.dir = .bi ∧
      id.index < config.maxRemoteBi then some none else none

theorem blank_new (config : Config) : Blank config (.new .client config.maxRemoteUni
    config.maxRemoteBi config.sendWindow config.receiveWindow config.streamReceiveWindow) := by
  have hsend := send_new .client config.maxRemoteUni config.maxRemoteBi config.sendWindow
    config.receiveWindow config.streamReceiveWindow
  refine ⟨?_, ?_, ?_, ?_, ?_, ?_, ?_, ?_, ?_, ?_, hsend⟩ <;>
    rw [new, insertRemote_rest, insertRemote_rest]
  funext dir
  cases dir <;> rfl

theorem Blank.not_used (h : Blank config s) (id : StreamId) (half : Send) :
    s.send id ≠ some (some half) := by
  rw [h.send]
  split_ifs <;> exact fun hid => by cases hid

theorem outstanding_eq_zero (h : ∀ half, s.send id ≠ some (some half)) : outstanding s id = 0 := by
  unfold outstanding
  rcases hsend : s.send id with _ | _ | half
  · rfl
  · rfl
  · exact absurd hsend (h half)

theorem inv_client : Inv config remembered (client config remembered).streams := by
  have hblank := blank_new config
  have hseated := seated_new .client config.maxRemoteUni config.maxRemoteBi config.sendWindow
    config.receiveWindow config.streamReceiveWindow
  change Inv config remembered (setParams _ remembered)
  generalize new .client _ _ _ _ _ = s at hblank hseated ⊢
  have hsend : (s.setParams remembered).send = s.send :=
    send_setParams fun id _ half => hblank.not_used id half
  refine ⟨hblank.side, ?_, hblank.sendWindow, hblank.maxRemote, fun id hid => ?_, fun id hid => ?_,
    (seats_setParams s remembered).seated hseated, fun id half => ?_, ?_⟩
  · change s.maxData.max remembered.initialMaxData = remembered.initialMaxData
    rw [hblank.maxData]
    exact Nat.zero_max _
  · rw [hsend, hblank.send]
    simp [hid]
  · have hlt : id.index < s.next id.dir := hid.2
    rw [hblank.next] at hlt
    exact absurd hlt (Nat.not_lt_zero _)
  · rw [hsend]
    exact fun hid => absurd hid (hblank.not_used id half)
  · refine (balanced_iff_of_forall fun id => outstanding_eq_zero fun half => ?_).mpr
      hblank.unackedData
    rw [hsend]
    exact hblank.not_used id half

theorem Inv.openStream (h : Inv config remembered s) (dir : Dir) :
    Inv config remembered (openStream s false dir).2 := by
  have hledger := h.ledger.openStream dir
  have hopens := opens s dir
  generalize StreamAccess.openStream s false dir = r at hopens hledger ⊢
  cases hopens with
  | refused => exact { h with ledger := hledger }
  | opened id hid _ _ hrecv =>
    refine ⟨h.side, h.maxData, h.sendWindow, h.maxRemote, fun j hj => ?_, fun j hj => ?_, hledger⟩
    · have hne : j ≠ id := by
        rintro rfl
        rw [hid] at hj
        cases hj.symm.trans h.side
      dsimp only
      rw [update_of_ne hne]
      exact h.theirs j hj
    · -- The stream is the new one, or it was open before.
      unfold Present
      dsimp only
      rw [hrecv]
      rcases eq_or_ne j id with rfl | hne
      · rw [update_self]
        refine ⟨Option.some_ne_none _, fun hdir => ?_⟩
        rw [hid] at hdir
        rw [if_pos ⟨rfl, hdir⟩]
        exact Option.some_ne_none _
      · rw [update_of_ne hne, if_neg fun hnew => hne hnew.1]
        refine h.present j ⟨hj.1, ?_⟩
        have hlt : j.index < update s.next dir (s.next dir + 1) j.dir := hj.2
        rcases eq_or_ne j.dir dir with hdir | hdir
        · rw [hdir, update_self] at hlt
          rw [hdir]
          refine Nat.lt_of_le_of_ne (Nat.lt_succ_iff.mp hlt) fun hindex => hne ?_
          obtain ⟨initiator, _, _⟩ := j
          have hinitiator : initiator = s.side := hj.1
          dsimp only at hdir hindex
          rw [hid, hinitiator, hdir, hindex]
        · rw [update_of_ne hdir] at hlt
          exact hlt

theorem Inv.writeStream (h : Inv config remembered s) (hid : id.initiator = .client)
    (data : Bytes) : Inv config remembered (writeStream s false id data).2 := by
  have hledger := h.ledger.writeStream id data
  unfold StreamAccess.writeStream at hledger ⊢
  rw [if_neg Bool.false_ne_true] at hledger ⊢
  rcases hget : s.getSend id with _ | half
  · exact h
  rw [hget] at hledger
  dsimp only at hledger ⊢
  by_cases hlimit : s.writeLimit = 0
  · split_ifs at hledger ⊢
    · exact h.setSend hid _ hledger rfl
    · refine h.setSend hid { half with connectionBlocked := true } hledger ?_
      simp [StreamsState.setSend]
  · rw [if_neg hlimit] at hledger ⊢
    split at hledger
    · exact h.setSend hid _ hledger rfl
    · rename_i written half' _
      refine h.setSend hid half' hledger ?_
      simp [StreamsState.setSend]

theorem Inv.finishStream (h : Inv config remembered s) (hid : id.initiator = .client) :
    Inv config remembered (finishStream s id).2 := by
  have hledger := h.ledger.finishStream id
  unfold StreamAccess.finishStream at hledger ⊢
  rcases hget : s.getSend id with _ | half
  · exact h
  rw [hget] at hledger
  dsimp only at hledger ⊢
  generalize half.finish = result at hledger ⊢
  rcases result with e | _ <;> exact h.setSend hid _ hledger rfl

theorem Inv.passed (h : Inv config remembered s) (hlevel : Level s s') (hpassed : Passed s s') :
    Inv config remembered s' := by
  refine ⟨hlevel.side.trans h.side, hpassed.maxData.trans h.maxData,
    hpassed.sendWindow.trans h.sendWindow, hlevel.maxRemote.trans h.maxRemote, fun id hid => ?_,
    fun id hid => ?_, h.ledger.passed hlevel hpassed⟩
  · rw [← h.theirs id hid]
    rcases hpassed.send id with heq | ⟨_, -, hhalf, -⟩
    · exact heq
    · rw [h.theirs id hid] at hhalf
      split_ifs at hhalf
      cases hhalf
  · have hown : Own s id := by
      refine ⟨hid.1.trans hlevel.side, ?_⟩
      rw [← hlevel.next]
      exact hid.2
    obtain ⟨hsend, hrecv⟩ := h.present id hown
    refine ⟨?_, fun hdir => ?_⟩
    · rw [Ne, hlevel.send]
      exact hsend
    · rw [Ne, hlevel.recv]
      exact hrecv hdir

theorem inv_step {op : Operation} (h : Inv config remembered p.streams) (hop : early p op = true)
    (hstep : (resumed config remembered).step p op = some p') :
    Inv config remembered p'.streams := by
  unfold early at hop
  split at hop
  · cases hstep
    exact h.openStream _
  · simp only [resumed, StreamSession.step] at hstep
    split_ifs at hstep
    obtain ⟨⟨_, t⟩, ht, rfl⟩ := Option.map_eq_some_iff.mp hstep
    exact h.passed (level_transmit ht) (passed_transmit ht)
  · cases hstep
    exact h.writeStream (of_decide_eq_true hop) _
  · cases hstep
    exact h.finishStream (of_decide_eq_true hop)
  · cases hop

end Early

section Rejection

variable {config : Config} {remembered params : StreamsState.PeerLimits} {p : Party}

/-- The sending side is that of `t`, and so is whatever is answered later; the connection
goes on to count what is outstanding on its streams. -/
structure Restarted (s t : StreamsState) : Prop where
  maxData : s.maxData = t.maxData
  dataSent : s.dataSent = t.dataSent
  unackedData : s.unackedData = t.unackedData
  sendStreams : s.sendStreams = t.sendStreams
  next : s.next = t.next
  pending : s.pending.next = t.pending.next ∧ s.pending.streams = t.pending.streams
  connectionBlocked : s.connectionBlocked = t.connectionBlocked
  writeLimit : s.writeLimit = t.writeLimit
  replies : ∀ calls, (answers s calls).1 = (answers t calls).1
  balanced : ∀ calls, Balanced (answers s calls).2

theorem Inv.send_rejected (h : Inv config remembered s) (hblank : Blank config t) :
    (rejected s).send = t.send := by
  funext id
  rw [hblank.send]
  change (if Own s id then none else s.send id) = _
  have hside := h.side
  split_ifs with hown hpeer hpeer
  · rw [hown.1, hside] at hpeer
    cases hpeer.1
  · rfl
  · rw [h.theirs id hpeer.1, if_pos hpeer.2]
  · rcases hinitiator : id.initiator with _ | _
    · by_contra hsome
      exact hown (h.ledger.seated.ours id (hinitiator.trans hside.symm) hsome)
    · rw [h.theirs id hinitiator, if_neg fun hin => hpeer ⟨hinitiator, hin⟩]

theorem Inv.restarted_iff (h : Inv config remembered s) :
    Restarted ((rejected s).setParams params) (client config params).streams ↔
      s.unackedData = 0 ∧ remembered.initialMaxData ≤ params.initialMaxData := by
  have hblank := blank_new config
  change Restarted _ (setParams _ params) ↔ _
  generalize new .client _ _ _ _ _ = t at hblank ⊢
  have hmax : ((rejected s).setParams params).maxData =
      max remembered.initialMaxData params.initialMaxData := by
    rw [← h.maxData]
    rfl
  have hmax' : (t.setParams params).maxData = params.initialMaxData := by
    change max t.maxData _ = _
    rw [hblank.maxData, Nat.zero_max]
  have hsend := h.send_rejected hblank
  have hused : ∀ id half, (rejected s).send id ≠ some (some half) := by
    rw [hsend]
    exact hblank.not_used
  have hparams : ((rejected s).setParams params).send = (t.setParams params).send := by
    rw [send_setParams fun id _ => hused id, send_setParams fun id _ => hblank.not_used id]
    exact hsend
  constructor
  · intro hrestarted
    refine ⟨hrestarted.unackedData.trans hblank.unackedData, ?_⟩
    have heq := hrestarted.maxData
    rw [hmax, hmax'] at heq
    rw [← heq]
    exact Nat.le_max_left _ _
  · rintro ⟨hunacked, hle⟩
    have hside : s.side = t.side := h.side.trans hblank.side.symm
    have halike : Alike ((rejected s).setParams params) (t.setParams params) := by
      refine ⟨hside, ?_, rfl, ?_, ?_, ?_, ?_, ?_, hparams⟩
      · exact hblank.next.symm
      · rw [hmax, hmax']
        exact Nat.max_eq_right hle
      · exact hblank.dataSent.symm
      · exact hunacked.trans hblank.unackedData.symm
      · exact h.sendWindow.trans hblank.sendWindow.symm
      · funext ⟨initiator, dir, index⟩
        cases dir with
        | uni => rfl
        | bi =>
          change (if s.side ≠ initiator then params.initialMaxStreamDataBidiLocal
            else params.initialMaxStreamDataBidiRemote) = _
          rw [hside]
          rfl
    have hledger : Ledger ((rejected s).setParams params) := by
      refine ⟨(seats_setParams _ params).seated (seated_rejected h.ledger.seated),
        fun id half => ?_,
        ?_⟩
      · rw [hparams, send_setParams fun id _ => hblank.not_used id]
        exact fun hid => absurd hid (hblank.not_used id half)
      · refine (balanced_iff_of_forall fun id => outstanding_eq_zero fun half => ?_).mpr hunacked
        rw [hparams, send_setParams fun id _ => hblank.not_used id]
        exact hblank.not_used id half
    have hpending : (t.setParams params).pending = .new := hblank.pending
    refine ⟨halike.maxData, halike.dataSent, halike.unackedData, hblank.sendStreams.symm,
      halike.next, ?_, hblank.connectionBlocked.symm, halike.writeLimit, halike.answers,
      fun calls => (hledger.answers calls).balanced⟩
    rw [hpending]
    exact ⟨rfl, rfl⟩

/-- While early data is sent, the connection counts what is outstanding on its streams.  A
rejection restarts the sending side where nothing is outstanding and the remembered limit
was not above the new one, and nowhere else. -/
theorem restarted_iff_of_early
    (hp : (resumed config remembered).ReachableVia (fun p op => early p op = true) p) :
    Balanced p.streams ∧ ∃ s, p.streams.zeroRttRejected = some s ∧ ∀ params,
      (Restarted (s.setParams params) (client config params).streams ↔
        p.streams.unackedData = 0 ∧ remembered.initialMaxData ≤ params.initialMaxData) := by
  have hinv : Inv config remembered p.streams := by
    refine hp.invariant ?_ fun _ _ _ => inv_step
    rintro _ rfl
    exact inv_client
  exact ⟨hinv.ledger.balanced, _, zeroRttRejected_eq_some_iff.mpr ⟨hinv.present, rfl⟩,
    fun _ => hinv.restarted_iff⟩

def exampleConfig : Config :=
  ⟨0, 1, 100, 100, 100⟩

def limits (initialMaxData : Nat) : StreamsState.PeerLimits :=
  ⟨50, 50, 50, 4, 4, initialMaxData⟩

/-- A stream is opened and finished without data, and the server admits more than before. -/
theorem finishedStream_restarted :
    ∃ p s, (resumed exampleConfig (limits 60)).ReachableVia (fun p op => early p op = true) p ∧
      p.streams.next .bi = 1 ∧ p.streams.zeroRttRejected = some s ∧
      Restarted (s.setParams (limits 80)) (client exampleConfig (limits 80)).streams := by
  have hreach := System.ReachableVia.of_runChecked (fun _ _ h => h) (.initial rfl)
    (rfl : (resumed exampleConfig (limits 60)).runChecked early (client exampleConfig (limits 60))
      [.call (.openStream .bi), .call (.finish ⟨.client, .bi, 0⟩), .transmit ⟨0, 50, false, []⟩] =
        some _)
  obtain ⟨-, s, hs, hiff⟩ := restarted_iff_of_early hreach
  exact ⟨_, s, hreach, rfl, hs, (hiff (limits 80)).mpr ⟨rfl, by decide⟩⟩

/-- Ten bytes of early data stay in the count of unacknowledged bytes, and the limit stays
the remembered one: a client that sent no early data could write ten bytes more, but only
up to the new limit. -/
theorem earlyBytes_not_restarted : (∃ p s, (resumed exampleConfig (limits 100)).Reachable p ∧
      p.streams.zeroRttRejected = some s ∧
      (s.setParams (limits 100)).unackedData = 10 ∧
      (s.setParams (limits 100)).writeLimit = 90 ∧
      (client exampleConfig (limits 100)).streams.writeLimit = 100 ∧
      ¬ Restarted (s.setParams (limits 100)) (client exampleConfig (limits 100)).streams) ∧
    ∃ p s, (resumed exampleConfig (limits 100)).Reachable p ∧
      p.streams.zeroRttRejected = some s ∧ (s.setParams (limits 20)).maxData = 100 ∧
      (client exampleConfig (limits 20)).streams.maxData = 20 ∧
      ¬ Restarted (s.setParams (limits 20)) (client exampleConfig (limits 20)).streams := by
  have hinitial :
      (resumed exampleConfig (limits 100)).Reachable (client exampleConfig (limits 100)) :=
    .initial rfl
  constructor
  · refine hinitial.exists₂_of_run [.call (.openStream .bi),
      .call (.write ⟨.client, .bi, 0⟩ (List.replicate 10 7)), .transmit ⟨0, 50, false, []⟩]
      ⟨_, _, rfl, rfl, rfl, rfl, rfl, fun hrestarted => ?_⟩
    have heq : 10 = 0 := hrestarted.unackedData
    cases heq
  · refine ⟨_, _, hinitial, rfl, rfl, rfl, fun hrestarted => ?_⟩
    have heq : 100 = 20 := hrestarted.maxData
    cases heq

end Rejection

end Quac.FreshStart
