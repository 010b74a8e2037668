import Quac.StreamParty

/-!
What flow control says about the streams of one side: the halves of each stream
and the limits and counters of the connection, without the queues, the events and
the storage for halves to come.  Each operation on streams is described by what it
does to these accounts.
-/

namespace Quac.StreamAccounts

open Function Identifiers RecvHalf SendData SendHalf StreamAccess StreamParty Streams StreamsState
open List

/-- The sending half of a stream: what the peer admits and what is buffered. -/
structure Outgoing where
  maxData : Nat
  state : SendState
  buffer : SendBuffer

namespace Outgoing

def new (maxData : Nat) : Outgoing :=
  ⟨maxData, .ready, .new⟩

def ofSend (half : Send) : Outgoing :=
  ⟨half.maxData, half.state, half.pending⟩

def write (half : Outgoing) (data : Bytes) : Outgoing :=
  if data.isEmpty then half else { half with buffer := half.buffer.write data }

end Outgoing

structure Accounts where
  side : Side
  /-- The limit of a new receiving half. -/
  streamReceiveWindow : Nat
  /-- The limit of a new sending half. -/
  maxSendData : StreamId → Nat
  send : StreamId → Option Outgoing
  recv : StreamId → Option Recv
  next : Dir → Nat
  max : Dir → Nat
  maxRemote : Dir → Nat
  sentMaxRemote : Dir → Nat
  allocatedRemoteCount : Dir → Nat
  nextRemote : Dir → Nat
  nextReportedRemote : Dir → Nat
  maxData : Nat
  dataSent : Nat
  receiveWindow : Nat
  receiveWindowShrinkDebt : Nat
  localMaxData : Nat
  sentMaxData : Nat
  dataRecvd : Nat

def accounts (s : StreamsState) : Accounts where
  side := s.side
  streamReceiveWindow := s.streamReceiveWindow
  maxSendData := s.maxSendData
  send id := (s.getSend id).map .ofSend
  recv := s.getRecv
  next := s.next
  max := s.max
  maxRemote := s.maxRemote
  sentMaxRemote := s.sentMaxRemote
  allocatedRemoteCount := s.allocatedRemoteCount
  nextRemote := s.nextRemote
  nextReportedRemote := s.nextReportedRemote
  maxData := s.maxData
  dataSent := s.dataSent
  receiveWindow := s.receiveWindow
  receiveWindowShrinkDebt := s.receiveWindowShrinkDebt
  localMaxData := s.localMaxData
  sentMaxData := s.sentMaxData
  dataRecvd := s.dataRecvd

variable {dir : Dir}

namespace Accounts

def setSend (a : Accounts) (id : StreamId) (half : Outgoing) : Accounts :=
  { a with send := Function.update a.send id (some half) }

def removeSend (a : Accounts) (id : StreamId) : Accounts :=
  { a with send := Function.update a.send id none }

def setRecv (a : Accounts) (id : StreamId) (half : Recv) : Accounts :=
  { a with recv := Function.update a.recv id (some half) }

def removeRecv (a : Accounts) (id : StreamId) : Accounts :=
  { a with recv := Function.update a.recv id none }

def openLocal (a : Accounts) (dir : Dir) : Accounts :=
  let id : StreamId := ⟨a.side, dir, a.next dir⟩
  { a with
    next := Function.update a.next dir (a.next dir + 1)
    send := Function.update a.send id (some (.new (a.maxSendData id)))
    recv :=
      match dir with
      | .bi => Function.update a.recv id (some (.new a.streamReceiveWindow))
      | .uni => a.recv }

/-- A stream of the peer that `maxRemote` admits and the limit so far does not. -/
def IsNew (a : Accounts) (maxRemote : Dir → Nat) (id : StreamId) : Prop :=
  id.initiator = a.side.peer ∧ a.maxRemote id.dir ≤ id.index ∧ id.index < maxRemote id.dir

instance (a : Accounts) (maxRemote : Dir → Nat) (id : StreamId) :
    Decidable (a.IsNew maxRemote id) :=
  inferInstanceAs (Decidable (_ ∧ _ ∧ _))

def Unborn (a : Accounts) (id : StreamId) : Prop :=
  (id.initiator = a.side → a.next id.dir ≤ id.index) ∧
    (id.initiator ≠ a.side → a.maxRemote id.dir ≤ id.index)

def allot (a : Accounts) (maxRemote allocatedRemoteCount : Dir → Nat) : Accounts :=
  { a with
    maxRemote
    allocatedRemoteCount
    send := fun id =>
      if a.IsNew maxRemote id ∧ id.dir = .bi then some (.new (a.maxSendData id)) else a.send id
    recv := fun id =>
      if a.IsNew maxRemote id then some (.new a.streamReceiveWindow) else a.recv id }

def credit (a : Accounts) (credits : Nat) : Accounts :=
  if a.receiveWindowShrinkDebt < credits then
    { a with
      localMaxData := (a.localMaxData + (credits - a.receiveWindowShrinkDebt)).min (2 ^ 64 - 1)
      receiveWindowShrinkDebt := 0 }
  else { a with receiveWindowShrinkDebt := a.receiveWindowShrinkDebt - credits }

/-- The peer has opened all streams up to this one, if it is the peer's. -/
def announce (a : Accounts) (id : StreamId) : Accounts :=
  if id.initiator = a.side then a
  else
    { a with
      nextRemote := Function.update a.nextRemote id.dir
        ((a.nextRemote id.dir).max (id.index + 1)) }

theorem le_update_add (limit : Dir → Nat) (dir : Dir) (n : Nat) (d : Dir) :
    limit d ≤ update limit dir (limit dir + n) d := by
  rcases eq_or_ne d dir with rfl | hne
  · rw [update_self]
    exact Nat.le_add_right _ _
  · rw [update_of_ne hne]

section Unborn

variable {a : Accounts} {id : StreamId} {maxRemote allocatedRemoteCount : Dir → Nat}

theorem peer_ne (side : Side) : side.peer ≠ side := by
  cases side <;> simp [Side.peer]

theorem IsNew.ne_side (h : a.IsNew maxRemote id) : id.initiator ≠ a.side := by
  rw [h.1]
  exact peer_ne a.side

theorem IsNew.unborn (h : a.IsNew maxRemote id) : a.Unborn id :=
  ⟨fun hside => absurd hside h.ne_side, fun _ => h.2.1⟩

theorem IsNew.not_unborn_allot (h : a.IsNew maxRemote id) :
    ¬ (a.allot maxRemote allocatedRemoteCount).Unborn id :=
  fun hunborn => Nat.not_le_of_lt h.2.2 (hunborn.2 h.ne_side)

theorem unborn_of_allot (hle : ∀ dir, a.maxRemote dir ≤ maxRemote dir)
    (h : (a.allot maxRemote allocatedRemoteCount).Unborn id) : a.Unborn id :=
  ⟨h.1, fun hside => le_trans (hle _) (h.2 hside)⟩

theorem unborn_next (a : Accounts) (dir : Dir) : a.Unborn ⟨a.side, dir, a.next dir⟩ :=
  ⟨fun _ => le_rfl, fun hside => absurd rfl hside⟩

theorem not_unborn_openLocal (a : Accounts) (dir : Dir) :
    ¬ (a.openLocal dir).Unborn ⟨a.side, dir, a.next dir⟩ := by
  intro h
  have hle := h.1 rfl
  simp only [openLocal, update_self] at hle
  omega

theorem unborn_of_openLocal (h : (a.openLocal dir).Unborn id) : a.Unborn id := by
  refine ⟨fun hside => ?_, h.2⟩
  have hle := h.1 hside
  rcases eq_or_ne id.dir dir with rfl | hne
  · simp only [openLocal, update_self] at hle
    omega
  · simpa only [openLocal, update_of_ne hne] using hle

theorem openLocal_recv_of_ne (h : id ≠ ⟨a.side, dir, a.next dir⟩) :
    (a.openLocal dir).recv id = a.recv id := by
  cases dir with
  | uni => rfl
  | bi => exact update_of_ne h _ _

theorem openLocal_recv_self {recv : Recv}
    (h : (a.openLocal dir).recv ⟨a.side, dir, a.next dir⟩ = some recv) :
    dir = .bi ∧ recv = .new a.streamReceiveWindow ∨
      a.recv ⟨a.side, dir, a.next dir⟩ = some recv := by
  cases dir with
  | uni => exact .inr h
  | bi =>
    simp only [openLocal, update_self, Option.some.injEq] at h
    exact .inl ⟨rfl, h.symm⟩

end Unborn

end Accounts

/-- The halves kept for new streams are as good as new. -/
def Fresh (s : StreamsState) : Prop :=
  ∀ recv ∈ s.freeRecv, recv = .free (.new s.streamReceiveWindow)

variable {s s' : StreamsState} {id : StreamId}

theorem accounts_setSend (half : Send) :
    accounts (s.setSend id half) = (accounts s).setSend id (.ofSend half) := by
  have hsend : (fun j => ((s.setSend id half).getSend j).map Outgoing.ofSend) =
      update (fun j => (s.getSend j).map .ofSend) id (some (.ofSend half)) := by
    funext j
    rcases eq_or_ne j id with rfl | hne
    · simp [getSend, setSend]
    · simp only [getSend, setSend, update_of_ne hne]
      rfl
  simp only [accounts, Accounts.setSend, ← hsend]
  rfl

theorem accounts_removeSend : accounts (s.removeSend id) = (accounts s).removeSend id := by
  have hsend : (fun j => ((s.removeSend id).getSend j).map Outgoing.ofSend) =
      update (fun j => (s.getSend j).map .ofSend) id none := by
    funext j
    rcases eq_or_ne j id with rfl | hne
    · simp [getSend, removeSend]
    · simp only [getSend, removeSend, update_of_ne hne]
      rfl
  simp only [accounts, Accounts.removeSend, ← hsend]
  rfl

theorem accounts_setRecv (half : Recv) :
    accounts (s.setRecv id half) = (accounts s).setRecv id half := by
  have hrecv : (s.setRecv id half).getRecv = update s.getRecv id (some half) := by
    funext j
    rcases eq_or_ne j id with rfl | hne
    · simp [getRecv, setRecv, getOrInsertRecv]
    · simp only [getRecv, setRecv, update_of_ne hne]
  simp only [accounts, Accounts.setRecv, hrecv]
  rfl

theorem accounts_removeRecv : accounts (s.removeRecv id) = (accounts s).removeRecv id := by
  have hrecv : (s.removeRecv id).getRecv = update s.getRecv id none := by
    funext j
    rcases eq_or_ne j id with rfl | hne
    · simp [getRecv, removeRecv]
    · simp only [getRecv, removeRecv, update_of_ne hne]
  simp only [accounts, Accounts.removeRecv, hrecv]
  rfl

theorem accounts_getSend {half : Send} (h : s.getSend id = some half) :
    accounts (s.setSend id half) = accounts s := by
  rw [accounts_setSend]
  have hsend : (accounts s).send id = some (.ofSend half) := by simp [accounts, h]
  simp only [Accounts.setSend, ← hsend, update_eq_self]

theorem accounts_getRecv {half : Recv} (h : s.getRecv id = some half) :
    accounts (s.setRecv id half) = accounts s := by
  rw [accounts_setRecv]
  have hrecv : (accounts s).recv id = some half := h
  simp only [Accounts.setRecv, ← hrecv, update_eq_self]

theorem insert_rest (remote : Bool) (id : StreamId) : s.insert remote id = { s with
      send := (s.insert remote id).send
      recv := (s.insert remote id).recv
      freeRecv := (s.insert remote id).freeRecv } := by
  unfold StreamsState.insert
  dsimp only
  split_ifs <;> rfl

theorem send_insert (remote : Bool) (j : StreamId) : (s.insert remote id).send j =
    if j = id ∧ (id.dir = .bi ∨ remote = false) then some none else s.send j := by
  unfold StreamsState.insert
  dsimp only
  rcases eq_or_ne j id with rfl | _ <;> split_ifs <;> simp_all

theorem getSend_insert (remote : Bool) (j : StreamId) : (s.insert remote id).getSend j =
    if j = id ∧ (id.dir = .bi ∨ remote = false) then some (.new (s.maxSendData id))
    else s.getSend j := by
  have hlimit : (s.insert remote id).maxSendData = s.maxSendData := by
    rw [insert_rest]
    rfl
  simp only [getSend, send_insert, hlimit]
  split_ifs with h
  · rw [h.1]
    rfl
  · rfl

theorem recv_insert (remote : Bool) (j : StreamId) : (s.insert remote id).recv j =
    if j = id ∧ (id.dir = .bi ∨ remote = true) then some s.freeRecv.head? else s.recv j := by
  unfold StreamsState.insert
  dsimp only
  rcases eq_or_ne j id with rfl | _ <;> split_ifs <;> simp_all

theorem getRecv_insert (hfresh : Fresh s) (remote : Bool) (j : StreamId) :
    (s.insert remote id).getRecv j =
      if j = id ∧ (id.dir = .bi ∨ remote = true) then some (.new s.streamReceiveWindow)
      else s.getRecv j := by
  have hwindow : (s.insert remote id).streamReceiveWindow = s.streamReceiveWindow := by
    rw [insert_rest]
  simp only [getRecv, recv_insert, hwindow]
  split_ifs with h
  · rcases hhead : s.freeRecv.head? with _ | recv
    · rfl
    · rw [hfresh recv (mem_of_head? hhead)]
      rfl
  · rfl

theorem fresh_insert (hfresh : Fresh s) (remote : Bool) : Fresh (s.insert remote id) := by
  intro recv hrecv
  have hwindow : (s.insert remote id).streamReceiveWindow = s.streamReceiveWindow := by
    rw [insert_rest]
  rw [hwindow]
  apply hfresh
  unfold StreamsState.insert at hrecv
  dsimp only at hrecv
  split_ifs at hrecv
  iterate 2 exact mem_of_mem_tail hrecv
  all_goals exact hrecv

/-- What `open` does while the connection is open: it is refused, or enters a stream. -/
inductive Opens (s : StreamsState) (dir : Dir) : Option StreamId × StreamsState → Prop
  | refused : Opens s dir
      (none, { s with streamsBlocked := Function.update s.streamsBlocked dir true })
  | opened (id : StreamId) (hid : id = ⟨s.side, dir, s.next dir⟩)
      (recv : StreamId → Option (Option StreamRecv)) (freeRecv : List StreamRecv)
      (hrecv : ∀ j, recv j = if j = id ∧ dir = .bi then some s.freeRecv.head? else s.recv j) :
      Opens s dir (some id, { s with
        next := Function.update s.next dir (s.next dir + 1)
        send := Function.update s.send id (some none)
        recv
        freeRecv
        sendStreams := s.sendStreams + 1 })

theorem opens (s : StreamsState) (dir : Dir) : Opens s dir (openStream s false dir) := by
  unfold openStream
  rw [if_neg Bool.false_ne_true]
  split_ifs
  · exact .refused
  · cases dir with
    | bi =>
      refine .opened _ rfl (update s.recv _ (some s.freeRecv.head?)) _ fun j => ?_
      simp [update_apply]
    | uni => exact .opened _ rfl s.recv _ fun j => by simp

theorem insertRemote_succ (dir : Dir) (start count : Nat) :
    s.insertRemote dir start (count + 1) = (s.insertRemote dir start count).insert true
      ⟨(s.insertRemote dir start count).side.peer, dir, start + count⟩ := by
  simp only [insertRemote, range_succ, foldl_append, foldl_cons, foldl_nil]

theorem insertRemote_rest (dir : Dir) (start count : Nat) : s.insertRemote dir start count =
    { s with
      send := (s.insertRemote dir start count).send
      recv := (s.insertRemote dir start count).recv
      freeRecv := (s.insertRemote dir start count).freeRecv } := by
  induction count with
  | zero => rfl
  | succ _ ih =>
    rw [insertRemote_succ]
    rw [insert_rest, ih]

theorem fresh_insertRemote (hfresh : Fresh s) (dir : Dir) (start count : Nat) :
    Fresh (s.insertRemote dir start count) := by
  induction count with
  | zero => exact hfresh
  | succ _ ih =>
    rw [insertRemote_succ]
    exact fresh_insert ih true

def InRange (s : StreamsState) (dir : Dir) (start count : Nat) (id : StreamId) : Prop :=
  id.initiator = s.side.peer ∧ id.dir = dir ∧ start ≤ id.index ∧ id.index < start + count

instance (dir : Dir) (start count : Nat) : Decidable (InRange s dir start count id) :=
  inferInstanceAs (Decidable (_ ∧ _ ∧ _ ∧ _))

theorem inRange_succ {start count : Nat} : InRange s dir start (count + 1) id ↔
    InRange s dir start count id ∨ id = ⟨s.side.peer, dir, start + count⟩ := by
  constructor
  · rintro ⟨hpeer, hdir, hle, hlt⟩
    rcases Nat.lt_or_ge id.index (start + count) with h | h
    · exact .inl ⟨hpeer, hdir, hle, h⟩
    · refine .inr ?_
      have hindex : id.index = start + count := by omega
      rw [← hpeer, ← hdir, ← hindex]
  · rintro (⟨hpeer, hdir, hle, hlt⟩ | rfl)
    · exact ⟨hpeer, hdir, hle, by omega⟩
    · exact ⟨rfl, rfl, Nat.le_add_right _ _, by simp⟩

theorem send_insertRemote (dir : Dir) (start count : Nat) (j : StreamId) :
    (s.insertRemote dir start count).send j =
      if InRange s dir start count j ∧ j.dir = .bi then some none else s.send j := by
  induction count with
  | zero =>
    rw [if_neg]
    · rfl
    · rintro ⟨⟨-, -, hle, hlt⟩, -⟩
      omega
  | succ count ih =>
    have hside : (s.insertRemote dir start count).side = s.side := by rw [insertRemote_rest]
    rw [insertRemote_succ, send_insert, hside, ih]
    simp only [inRange_succ, Bool.true_eq_false, or_false]
    by_cases hnew : j = ⟨s.side.peer, dir, start + count⟩
    · subst hnew
      by_cases hbi : dir = .bi <;> simp [hbi, InRange]
    · simp [hnew]

theorem getSend_insertRemote (dir : Dir) (start count : Nat) (j : StreamId) :
    (s.insertRemote dir start count).getSend j =
      if InRange s dir start count j ∧ j.dir = .bi then some (.new (s.maxSendData j))
      else s.getSend j := by
  have hlimit : (s.insertRemote dir start count).maxSendData = s.maxSendData := by
    rw [insertRemote_rest]
    rfl
  simp only [getSend, send_insertRemote, hlimit]
  split_ifs <;> rfl

theorem getRecv_insertRemote (hfresh : Fresh s) (dir : Dir) (start count : Nat) (j : StreamId) :
    (s.insertRemote dir start count).getRecv j =
      if InRange s dir start count j then some (.new s.streamReceiveWindow) else s.getRecv j := by
  induction count with
  | zero =>
    rw [if_neg]
    · rfl
    · rintro ⟨-, -, hle, hlt⟩
      omega
  | succ count ih =>
    have hside : (s.insertRemote dir start count).side = s.side := by rw [insertRemote_rest]
    have hwindow : (s.insertRemote dir start count).streamReceiveWindow =
        s.streamReceiveWindow := by
      rw [insertRemote_rest]
    rw [insertRemote_succ, getRecv_insert (fresh_insertRemote hfresh dir start count), hside,
      hwindow, ih]
    simp only [inRange_succ, or_true, and_true]
    by_cases hnew : j = ⟨s.side.peer, dir, start + count⟩
    · simp [hnew]
    · simp [hnew]

theorem accounts_ensureRemoteStreams (hfresh : Fresh s) (dir : Dir) :
    Fresh (s.ensureRemoteStreams dir) ∧
      ∃ n, accounts (s.ensureRemoteStreams dir) = (accounts s).allot
        (update s.maxRemote dir (s.maxRemote dir + n))
        (update s.allocatedRemoteCount dir (s.allocatedRemoteCount dir + n)) := by
  unfold ensureRemoteStreams
  dsimp only
  generalize s.maxConcurrentRemoteCount dir - s.allocatedRemoteCount dir = n
  have hrest := insertRemote_rest (s := s) dir (s.maxRemote dir) n
  have hmax : (s.insertRemote dir (s.maxRemote dir) n).maxRemote = s.maxRemote := by rw [hrest]
  have hallocated : (s.insertRemote dir (s.maxRemote dir) n).allocatedRemoteCount =
      s.allocatedRemoteCount := by rw [hrest]
  refine ⟨fresh_insertRemote hfresh dir _ n, n, ?_⟩
  rw [hmax, hallocated]
  -- The streams in the range are those that only the new limit admits.
  have hnew : ∀ j : StreamId, InRange s dir (s.maxRemote dir) n j ↔ (accounts s).IsNew
      (update s.maxRemote dir (s.maxRemote dir + n)) j := by
    intro j
    simp only [InRange, Accounts.IsNew, accounts, update_apply]
    by_cases hdir : j.dir = dir
    · simp [hdir]
    · simp only [hdir, if_false, false_and, and_false, false_iff]
      omega
  have hsend := getSend_insertRemote (s := s) dir (s.maxRemote dir) n
  have hrecv := getRecv_insertRemote hfresh dir (s.maxRemote dir) n
  simp only [hnew] at hsend hrecv
  have hsend' : (fun j => ((s.insertRemote dir (s.maxRemote dir) n).getSend j).map
      Outgoing.ofSend) = ((accounts s).allot (update s.maxRemote dir
        (s.maxRemote dir + n)) (update s.allocatedRemoteCount dir
        (s.allocatedRemoteCount dir + n))).send := by
    funext j
    rw [hsend]
    simp only [Accounts.allot]
    split_ifs <;> rfl
  have hrecv' : (s.insertRemote dir (s.maxRemote dir) n).getRecv = ((accounts s).allot
      (update s.maxRemote dir (s.maxRemote dir + n)) (update
        s.allocatedRemoteCount dir (s.allocatedRemoteCount dir + n))).recv :=
    funext hrecv
  generalize s.insertRemote dir (s.maxRemote dir) n = t at hrest hsend' hrecv' ⊢
  calc accounts { t with
        allocatedRemoteCount := update s.allocatedRemoteCount dir
          (s.allocatedRemoteCount dir + n)
        maxRemote := update s.maxRemote dir (s.maxRemote dir + n) }
    _ = { accounts s with
          allocatedRemoteCount := update s.allocatedRemoteCount dir
            (s.allocatedRemoteCount dir + n)
          maxRemote := update s.maxRemote dir (s.maxRemote dir + n)
          send := fun j => (t.getSend j).map Outgoing.ofSend
          recv := t.getRecv } := by
        rw [hrest]
        rfl
    _ = _ := by
        rw [hsend', hrecv']
        rfl

/-- Both halves of a stream of the peer are gone once this one is. -/
def Accounts.FullyFree (a : Accounts) (id : StreamId) (half : StreamHalf) : Prop :=
  id.initiator ≠ a.side ∧ (id.dir = .uni ∨ match half with
    | .send => a.recv id = none
    | .recv => a.send id = none)

/-- The limits after half of a stream is removed. -/
structure Accounts.Room (a : Accounts) (id : StreamId) (half : StreamHalf)
    (maxRemote allocatedRemoteCount : Dir → Nat) : Prop where
  le : ∀ dir, a.maxRemote dir ≤ maxRemote dir
  freed : a.FullyFree id half → allocatedRemoteCount id.dir + a.maxRemote id.dir =
    a.allocatedRemoteCount id.dir - 1 + maxRemote id.dir
  kept : ∀ dir, ¬ (a.FullyFree id half ∧ dir = id.dir) →
    allocatedRemoteCount dir + a.maxRemote dir = a.allocatedRemoteCount dir + maxRemote dir

theorem Accounts.allot_self (a : Accounts) : a.allot a.maxRemote a.allocatedRemoteCount = a := by
  have hnew : ∀ id, ¬ a.IsNew a.maxRemote id := by
    rintro id ⟨-, hle, hlt⟩
    omega
  simp only [allot, hnew, false_and, if_false]

theorem accounts_streamFreed (hfresh : Fresh s) (id : StreamId) (half : StreamHalf) :
    Fresh (s.streamFreed id half) ∧ ∃ maxRemote allocatedRemoteCount,
      (accounts s).Room id half maxRemote allocatedRemoteCount ∧
      accounts (s.streamFreed id half) = (accounts s).allot maxRemote allocatedRemoteCount := by
  have hsend : (s.send id).isNone = true ↔ (accounts s).send id = none := by
    simp [accounts, getSend]
  have hrecv : (s.recv id).isNone = true ↔ (accounts s).recv id = none := by
    simp [accounts, getRecv]
  have hensure : ∀ fullyFree : Bool, (fullyFree = true ↔ (accounts s).FullyFree id half) →
      Fresh (if fullyFree then
        ensureRemoteStreams { s with
          allocatedRemoteCount := update s.allocatedRemoteCount id.dir
            (s.allocatedRemoteCount id.dir - 1) } id.dir else s) ∧
      ∃ maxRemote allocatedRemoteCount, (accounts s).Room id half maxRemote allocatedRemoteCount ∧
        accounts (if fullyFree then
          ensureRemoteStreams { s with
            allocatedRemoteCount := update s.allocatedRemoteCount id.dir
              (s.allocatedRemoteCount id.dir - 1) } id.dir else s) =
          (accounts s).allot maxRemote allocatedRemoteCount := by
    rintro (_ | _) hfull
    · have hfree : ¬ (accounts s).FullyFree id half := fun h => Bool.false_ne_true (hfull.mpr h)
      refine ⟨hfresh, s.maxRemote, s.allocatedRemoteCount,
        ⟨fun _ => le_rfl, fun h => absurd h hfree, fun _ _ => rfl⟩, ?_⟩
      exact (Accounts.allot_self (accounts s)).symm
    · have hfree : (accounts s).FullyFree id half := hfull.mp rfl
      obtain ⟨hfresh', n, hensured⟩ := accounts_ensureRemoteStreams (s := { s with
        allocatedRemoteCount := update s.allocatedRemoteCount id.dir
          (s.allocatedRemoteCount id.dir - 1) }) hfresh id.dir
      refine ⟨hfresh', _, _, ⟨fun dir => ?_, fun _ => ?_, fun dir hdir => ?_⟩, hensured⟩
      · simp only [accounts, update_apply]
        split_ifs with hdir
        · rw [hdir]
          exact Nat.le_add_right _ _
        · exact le_rfl
      · simp only [accounts, update_self]
        omega
      · have hne : dir ≠ id.dir := fun h => hdir ⟨hfree, h⟩
        simp only [accounts, update_of_ne hne]
  cases half with
  | send =>
    obtain ⟨hfresh', maxRemote, allocated, hroom, heq⟩ :=
      hensure (id.initiator != s.side && (id.dir == .uni || (s.recv id).isNone))
        (by simp [Accounts.FullyFree, hrecv, accounts])
    exact ⟨hfresh', maxRemote, allocated, hroom, heq⟩
  | recv =>
    exact hensure (id.initiator != s.side && (id.dir == .uni || (s.send id).isNone))
      (by simp [Accounts.FullyFree, hsend, accounts])

theorem accounts_streamRecvFreed (hfresh : Fresh s) (id : StreamId) (recv : Recv) :
    Fresh (s.streamRecvFreed id (.opened recv)) ∧ ∃ maxRemote allocatedRemoteCount,
      (accounts s).Room id .recv maxRemote allocatedRemoteCount ∧
      accounts (s.streamRecvFreed id (.opened recv)) =
        (accounts s).allot maxRemote allocatedRemoteCount := by
  refine accounts_streamFreed (s := { s with
    freeRecv := (StreamRecv.opened recv).release s.streamReceiveWindow :: s.freeRecv }) ?_ id .recv
  intro free hmem
  rcases mem_cons.mp hmem with rfl | hmem
  · rfl
  · exact hfresh free hmem

theorem accounts_unackedData (s : StreamsState) (unackedData : Nat) :
    accounts { s with unackedData } = accounts s :=
  rfl

theorem accounts_addReadCredits (credits : Nat) :
    accounts (s.addReadCredits credits).2 = (accounts s).credit credits := by
  unfold addReadCredits Accounts.credit
  dsimp only
  split_ifs with h h' h'
  · rfl
  · exact absurd h h'
  · exact absurd h' h
  · rfl

theorem fresh_addReadCredits (hfresh : Fresh s) (credits : Nat) :
    Fresh (s.addReadCredits credits).2 := by
  unfold addReadCredits
  dsimp only
  split_ifs <;> exact hfresh

theorem accounts_onStreamFrame (notifyReadable : Bool) :
    accounts (s.onStreamFrame notifyReadable id) = (accounts s).announce id := by
  unfold onStreamFrame Accounts.announce
  have hside : (accounts s).side = s.side := rfl
  have hnext : (accounts s).nextRemote = s.nextRemote := rfl
  rw [hside, hnext]
  split_ifs with _ _ hnew
  · rfl
  · rfl
  · rw [show (s.nextRemote id.dir).max (id.index + 1) = id.index + 1 from
      Nat.max_eq_right (Nat.le_succ_of_le hnew)]
    rfl
  all_goals
    rw [show (s.nextRemote id.dir).max (id.index + 1) = s.nextRemote id.dir from
      Nat.max_eq_left (by omega), update_eq_self]
    rfl

theorem fresh_onStreamFrame (hfresh : Fresh s) (notifyReadable : Bool) :
    Fresh (s.onStreamFrame notifyReadable id) := by
  unfold onStreamFrame
  split_ifs <;> exact hfresh

theorem setParams_send (s : StreamsState) (params : StreamsState.PeerLimits) (id : StreamId) :
    (s.setParams params).send id = s.send id ∨
      id.initiator = s.side.peer ∧ (s.setParams params).send id = (s.send id).map fun slot =>
        slot.map fun half => { half with maxData := params.initialMaxStreamDataBidiLocal } := by
  by_cases hpeer : id.initiator = s.side.peer ∧ id.dir = .bi ∧ id.index < s.maxRemote .bi
  · exact .inr ⟨hpeer.1, if_pos hpeer⟩
  · exact .inl (if_neg hpeer)

section Initial

def initialAccounts (side : Side) (maxRemote : Dir → Nat) (receiveWindow streamReceiveWindow : Nat)
    (params : StreamsState.PeerLimits) : Accounts :=
  let maxSendData : StreamId → Nat := fun id =>
    match id.dir with
    | .uni => params.initialMaxStreamDataUni
    | .bi =>
      if side ≠ id.initiator then params.initialMaxStreamDataBidiLocal
      else params.initialMaxStreamDataBidiRemote
  { side
    streamReceiveWindow
    maxSendData
    send := fun id =>
      if id.initiator = side.peer ∧ id.index < maxRemote id.dir ∧ id.dir = .bi then
        some (.new (maxSendData id))
      else none
    recv := fun id =>
      if id.initiator = side.peer ∧ id.index < maxRemote id.dir then some (.new streamReceiveWindow)
      else none
    next := fun _ => 0
    max := fun
      | .bi => params.initialMaxStreamsBidi
      | .uni => params.initialMaxStreamsUni
    maxRemote
    sentMaxRemote := maxRemote
    allocatedRemoteCount := maxRemote
    nextRemote := fun _ => 0
    nextReportedRemote := fun _ => 0
    maxData := params.initialMaxData
    dataSent := 0
    receiveWindow
    receiveWindowShrinkDebt := 0
    localMaxData := receiveWindow
    sentMaxData := receiveWindow
    dataRecvd := 0 }

def remoteLimits (maxRemoteUni maxRemoteBi : Nat) : Dir → Nat
  | .bi => maxRemoteBi
  | .uni => maxRemoteUni

variable (side : Side) (uni bi sendWindow receiveWindow streamWindow : Nat)

/-- The streams before any are inserted for the peer. -/
def vacant : StreamsState :=
  { new side 0 0 sendWindow receiveWindow streamWindow with
    maxRemote := remoteLimits uni bi
    sentMaxRemote := remoteLimits uni bi
    allocatedRemoteCount := remoteLimits uni bi
    maxConcurrentRemoteCount := remoteLimits uni bi }

theorem new_rest : ∃ send recv freeRecv,
    new side uni bi sendWindow receiveWindow streamWindow =
      { vacant side uni bi sendWindow receiveWindow streamWindow with
        send, recv, freeRecv } := by
  unfold new
  rw [insertRemote_rest, insertRemote_rest]
  exact ⟨_, _, _, rfl⟩

theorem send_new (id : StreamId) : (new side uni bi sendWindow receiveWindow streamWindow).send id =
      if id.initiator = side.peer ∧ id.dir = .bi ∧ id.index < bi then some none
      else none := by
  unfold new
  rw [send_insertRemote, if_neg, send_insertRemote]
  · obtain ⟨_, dir, _⟩ := id
    cases dir <;> simp [InRange]
  · rintro ⟨⟨-, huni, -⟩, hbi⟩
    rw [hbi] at huni
    cases huni

theorem getRecv_new (id : StreamId) :
    (new side uni bi sendWindow receiveWindow streamWindow).getRecv id =
      if id.initiator = side.peer ∧ id.index < remoteLimits uni bi id.dir then
        some (.new streamWindow) else none := by
  obtain ⟨s, hs⟩ : ∃ s, s = vacant side uni bi sendWindow receiveWindow streamWindow := ⟨_, rfl⟩
  have hfresh : Fresh s := hs ▸ fun _ hrecv => (not_mem_nil hrecv).elim
  have hsame : s.side = side ∧ s.streamReceiveWindow = streamWindow ∧ ∀ j, s.getRecv j = none :=
    hs ▸ ⟨rfl, rfl, fun _ => rfl⟩
  have hbi : (s.insertRemote .bi 0 bi).side = s.side ∧
      (s.insertRemote .bi 0 bi).streamReceiveWindow = s.streamReceiveWindow := by
    rw [insertRemote_rest]
    exact ⟨rfl, rfl⟩
  have hnew : new side uni bi sendWindow receiveWindow streamWindow =
      (s.insertRemote .bi 0 bi).insertRemote .uni 0 uni := hs ▸ rfl
  rw [hnew, getRecv_insertRemote (fresh_insertRemote hfresh .bi 0 bi),
    getRecv_insertRemote hfresh]
  obtain ⟨_, dir, _⟩ := id
  cases dir <;> simp [InRange, hbi, hsame, remoteLimits] <;> congr

theorem accounts_new (params : StreamsState.PeerLimits) :
    Fresh (Party.new side uni bi sendWindow receiveWindow streamWindow params).streams ∧
    accounts (Party.new side uni bi sendWindow receiveWindow streamWindow params).streams =
      initialAccounts side (remoteLimits uni bi) receiveWindow streamWindow params := by
  have hsend := send_new side uni bi sendWindow receiveWindow streamWindow
  have hrecv := getRecv_new side uni bi sendWindow receiveWindow streamWindow
  have hfresh : Fresh (new side uni bi sendWindow receiveWindow streamWindow) :=
    fresh_insertRemote (fresh_insertRemote (fun _ hrecv => (not_mem_nil hrecv).elim) _ _ _) _ _ _
  obtain ⟨send, recv, freeRecv, hrest⟩ := new_rest side uni bi sendWindow receiveWindow
    streamWindow
  unfold Party.new
  rw [hrest] at hsend hrecv hfresh ⊢
  generalize hs : ({ vacant side uni bi sendWindow receiveWindow streamWindow with
    send, recv, freeRecv } : StreamsState) = s at *
  have hlimit : (s.setParams params).maxSendData = (initialAccounts side (remoteLimits uni bi)
      receiveWindow streamWindow params).maxSendData := by
    subst hs
    funext ⟨initiator, dir, index⟩
    cases dir <;> rfl
  have hsend' : ∀ id, ((s.setParams params).getSend id).map Outgoing.ofSend = (initialAccounts side
      (remoteLimits uni bi) receiveWindow streamWindow params).send id := by
    intro id
    -- No sending half is in use yet, so that there is none to give a limit to.
    have hparams : (s.setParams params).send id = s.send id := by
      simp only [setParams, receivedMaxData, hsend]
      split_ifs <;> rfl
    rw [getSend, hparams, hsend, hlimit]
    obtain ⟨_, dir, _⟩ := id
    cases dir
    · simp only [initialAccounts, remoteLimits, true_and, and_true]
      split_ifs <;> rfl
    · simp [initialAccounts]
  refine ⟨hfresh, ?_⟩
  calc accounts (s.setParams params)
    _ = { initialAccounts side (remoteLimits uni bi) receiveWindow streamWindow params with
          send := fun id => ((s.setParams params).getSend id).map Outgoing.ofSend
          recv := s.getRecv } := by
        have hmax : (0 : Nat).max params.initialMaxData = params.initialMaxData := Nat.zero_max _
        simp only [initialAccounts] at hlimit ⊢
        rw [← hlimit, ← hmax, ← hs]
        rfl
    _ = _ := by
        simp only [hsend', funext hrecv]
        rfl

end Initial

end Quac.StreamAccounts
