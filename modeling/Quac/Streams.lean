import Quac.RecvHalf
import Quac.SendHalf

/-!
The streams of one connection, `connection/streams/state.rs` and the accessors of
`connection/streams/mod.rs`.
-/

namespace Quac.Streams

open Identifiers Reassembly RecvHalf SendHalf

inductive StreamEvent
  | opened (dir : Dir)
  | readable (id : StreamId)
  | writable (id : StreamId)
  | finished (id : StreamId)
  | stopped (id : StreamId) (errorCode : Nat)
  | available (dir : Dir)
deriving DecidableEq

inductive StreamHalf
  | send
  | recv
deriving DecidableEq

structure PendingStream where
  priority : Int
  recency : Nat
  id : StreamId

/-- Streams with outgoing data; `streams` lists the heap in the order it is popped. -/
structure PendingStreamsQueue where
  streams : List PendingStream
  next : Option PendingStream
  recency : Nat

def PendingStream.before (a b : PendingStream) : Bool :=
  b.priority < a.priority || (b.priority == a.priority &&
    (b.recency < a.recency || (b.recency == a.recency && b.id.toNat ≤ a.id.toNat)))

namespace PendingStreamsQueue

def new : PendingStreamsQueue :=
  ⟨[], none, 2 ^ 64 - 1⟩

def reinsertPending (q : PendingStreamsQueue) (id : StreamId) (priority : Int) :
    PendingStreamsQueue :=
  { q with next := some ⟨priority, q.recency, id⟩ }

def pushPending (q : PendingStreamsQueue) (id : StreamId) (priority : Int) : PendingStreamsQueue :=
  { q with
    recency := q.recency - 1
    streams := q.streams.orderedInsert (fun a b => a.before b) ⟨priority, q.recency - 1, id⟩ }

def pop (q : PendingStreamsQueue) : Option (PendingStream × PendingStreamsQueue) :=
  match q.next, q.streams with
  | some p, _ => some (p, { q with next := none })
  | none, p :: rest => some (p, { q with streams := rest })
  | none, [] => none

def clear (q : PendingStreamsQueue) : PendingStreamsQueue :=
  { q with next := none, streams := [] }

end PendingStreamsQueue

/-- The frames of `Retransmits` that concern streams. -/
structure Retransmits where
  maxData : Bool
  maxStreamId : Dir → Bool
  streamsBlocked : Dir → Bool
  resetStream : List (StreamId × Nat)
  stopSending : List (StreamId × Nat)
  maxStreamData : List StreamId

def Retransmits.empty : Retransmits :=
  ⟨false, fun _ => false, fun _ => false, [], [], []⟩

structure StreamsState where
  side : Side
  /-- Streams that are open, or could be opened by the peer at once. -/
  send : StreamId → Option (Option Send)
  recv : StreamId → Option (Option StreamRecv)
  freeRecv : List StreamRecv
  next : Dir → Nat
  max : Dir → Nat
  maxRemote : Dir → Nat
  sentMaxRemote : Dir → Nat
  allocatedRemoteCount : Dir → Nat
  maxConcurrentRemoteCount : Dir → Nat
  /-- `maxConcurrentRemoteCount` was changed once. -/
  flowControlAdjusted : Bool
  nextRemote : Dir → Nat
  opened : Dir → Bool
  nextReportedRemote : Dir → Nat
  sendStreams : Nat
  pending : PendingStreamsQueue
  events : List StreamEvent
  connectionBlocked : List StreamId
  maxData : Nat
  receiveWindow : Nat
  localMaxData : Nat
  sentMaxData : Nat
  dataSent : Nat
  dataRecvd : Nat
  unackedData : Nat
  sendWindow : Nat
  streamReceiveWindow : Nat
  initialMaxStreamDataUni : Nat
  initialMaxStreamDataBidiLocal : Nat
  initialMaxStreamDataBidiRemote : Nat
  receiveWindowShrinkDebt : Nat
  streamsBlocked : Dir → Bool

namespace StreamsState

def insert (s : StreamsState) (remote : Bool) (id : StreamId) : StreamsState :=
  let bi := id.dir == .bi
  let s := if bi || !remote then { s with send := Function.update s.send id (some none) } else s
  if bi || remote then
    { s with
      freeRecv := s.freeRecv.tail
      recv := Function.update s.recv id (some s.freeRecv.head?) }
  else s

def insertRemote (s : StreamsState) (dir : Dir) (start count : Nat) : StreamsState :=
  (List.range count).foldl (fun s i => s.insert true ⟨s.side.peer, dir, start + i⟩) s

def new (side : Side)
    (maxRemoteUni maxRemoteBi sendWindow receiveWindow streamReceiveWindow : Nat) :
    StreamsState :=
  let maxRemote : Dir → Nat := fun
    | .bi => maxRemoteBi
    | .uni => maxRemoteUni
  let s : StreamsState :=
    { side
      send := fun _ => none
      recv := fun _ => none
      freeRecv := []
      next := fun _ => 0
      max := fun _ => 0
      maxRemote
      sentMaxRemote := maxRemote
      allocatedRemoteCount := maxRemote
      maxConcurrentRemoteCount := maxRemote
      flowControlAdjusted := false
      nextRemote := fun _ => 0
      opened := fun _ => false
      nextReportedRemote := fun _ => 0
      sendStreams := 0
      pending := .new
      events := []
      connectionBlocked := []
      maxData := 0
      receiveWindow
      localMaxData := receiveWindow
      sentMaxData := receiveWindow
      dataSent := 0
      dataRecvd := 0
      unackedData := 0
      sendWindow
      streamReceiveWindow
      initialMaxStreamDataUni := 0
      initialMaxStreamDataBidiLocal := 0
      initialMaxStreamDataBidiRemote := 0
      receiveWindowShrinkDebt := 0
      streamsBlocked := fun _ => false }
  (s.insertRemote .bi 0 maxRemoteBi).insertRemote .uni 0 maxRemoteUni

/-- The limits the peer sent in its transport parameters. -/
structure PeerLimits where
  initialMaxStreamDataUni : Nat
  initialMaxStreamDataBidiLocal : Nat
  initialMaxStreamDataBidiRemote : Nat
  initialMaxStreamsBidi : Nat
  initialMaxStreamsUni : Nat
  initialMaxData : Nat
deriving DecidableEq

def receivedMaxData (s : StreamsState) (n : Nat) : StreamsState :=
  { s with maxData := s.maxData.max n }

def setParams (s : StreamsState) (params : PeerLimits) : StreamsState :=
  let s := StreamsState.receivedMaxData
    { s with
      initialMaxStreamDataUni := params.initialMaxStreamDataUni
      initialMaxStreamDataBidiLocal := params.initialMaxStreamDataBidiLocal
      initialMaxStreamDataBidiRemote := params.initialMaxStreamDataBidiRemote
      max := fun
        | .bi => params.initialMaxStreamsBidi
        | .uni => params.initialMaxStreamsUni }
    params.initialMaxData
  { s with
    send := fun id =>
      if id.initiator = s.side.peer ∧ id.dir = .bi ∧ id.index < s.maxRemote .bi then
        (s.send id).map fun half =>
          half.map fun half => { half with maxData := params.initialMaxStreamDataBidiLocal }
      else s.send id }

def maxSendData (s : StreamsState) (id : StreamId) : Nat :=
  match id.dir with
  | .uni => s.initialMaxStreamDataUni
  | .bi =>
    -- The parameters are named from the perspective of the peer.
    if s.side ≠ id.initiator then s.initialMaxStreamDataBidiLocal
    else s.initialMaxStreamDataBidiRemote

def getSend (s : StreamsState) (id : StreamId) : Option Send :=
  (s.send id).map fun half => half.getD (Send.new (s.maxSendData id))

theorem send_of_getSend {s : StreamsState} {id : StreamId} {half : Send}
    (h : s.getSend id = some half) : s.send id = some (some half) ∨
      s.send id = some none ∧ half = .new (s.maxSendData id) := by
  obtain ⟨slot, hslot, hhalf⟩ := Option.map_eq_some_iff.mp h
  rcases slot with _ | _
  · exact .inr ⟨hslot, hhalf.symm⟩
  · cases hhalf
    exact .inl hslot

def setSend (s : StreamsState) (id : StreamId) (half : Send) : StreamsState :=
  { s with send := Function.update s.send id (some (some half)) }

def removeSend (s : StreamsState) (id : StreamId) : StreamsState :=
  { s with send := Function.update s.send id none }

def getRecv (s : StreamsState) (id : StreamId) : Option Recv :=
  (s.recv id).map (getOrInsertRecv s.streamReceiveWindow)

def setRecv (s : StreamsState) (id : StreamId) (half : Recv) : StreamsState :=
  { s with recv := Function.update s.recv id (some (some (.opened half))) }

def removeRecv (s : StreamsState) (id : StreamId) : StreamsState :=
  { s with recv := Function.update s.recv id none }

/-- Subtraction on `u64` in a release build. -/
def wrappingSub (a b : Nat) : Nat :=
  if b ≤ a then a - b else a + (2 ^ 64 - b)

def writeLimit (s : StreamsState) : Nat :=
  (s.maxData - s.dataSent).min (s.sendWindow - s.unackedData)

def isLocalUnopened (s : StreamsState) (id : StreamId) : Bool :=
  decide (s.next id.dir ≤ id.index)

def ensureRemoteStreams (s : StreamsState) (dir : Dir) : StreamsState :=
  let newCount := s.maxConcurrentRemoteCount dir - s.allocatedRemoteCount dir
  let s := s.insertRemote dir (s.maxRemote dir) newCount
  { s with
    allocatedRemoteCount := Function.update s.allocatedRemoteCount dir
      (s.allocatedRemoteCount dir + newCount)
    maxRemote := Function.update s.maxRemote dir (s.maxRemote dir + newCount) }

def setMaxConcurrent (s : StreamsState) (dir : Dir) (count : Nat) : StreamsState :=
  ensureRemoteStreams
    { s with
      flowControlAdjusted := true
      maxConcurrentRemoteCount := Function.update s.maxConcurrentRemoteCount dir count }
    dir

def setSendWindow (s : StreamsState) (sendWindow : Nat) : StreamsState :=
  { s with sendWindow }

/-- Whether the window was expanded. -/
def setReceiveWindow (s : StreamsState) (receiveWindow : Nat) : Bool × StreamsState :=
  if s.receiveWindow < receiveWindow then
    (true, { s with
      localMaxData := (s.localMaxData + (receiveWindow - s.receiveWindow)).min (2 ^ 64 - 1)
      receiveWindow })
  else
    (false, { s with
      receiveWindowShrinkDebt :=
        (s.receiveWindowShrinkDebt + (s.receiveWindow - receiveWindow)).min (2 ^ 64 - 1)
      receiveWindow })

/-- Give credit back to the peer; the result tells whether to send MAX_DATA. -/
def addReadCredits (s : StreamsState) (credits : Nat) : Bool × StreamsState :=
  let s :=
    if s.receiveWindowShrinkDebt < credits then
      { s with
        localMaxData := (s.localMaxData + (credits - s.receiveWindowShrinkDebt)).min (2 ^ 64 - 1)
        receiveWindowShrinkDebt := 0 }
    else { s with receiveWindowShrinkDebt := s.receiveWindowShrinkDebt - credits }
  (decide (s.localMaxData ≤ varIntMax) &&
    decide (s.receiveWindow / 8 ≤ s.localMaxData - s.sentMaxData), s)

/-- Update the counters when half of a stream is removed. -/
def streamFreed (s : StreamsState) (id : StreamId) (half : StreamHalf) : StreamsState :=
  let fullyFree :=
    id.initiator != s.side &&
      (id.dir == .uni ||
        match half with
        | .send => (s.recv id).isNone
        | .recv => (s.send id).isNone)
  let s :=
    if fullyFree then
      ensureRemoteStreams
        { s with
          allocatedRemoteCount := Function.update s.allocatedRemoteCount id.dir
            (s.allocatedRemoteCount id.dir - 1) }
        id.dir
    else s
  match half with
  | .send => { s with sendStreams := s.sendStreams - 1 }
  | .recv => s

def streamRecvFreed (s : StreamsState) (id : StreamId) (recv : StreamRecv) : StreamsState :=
  streamFreed { s with freeRecv := recv.release s.streamReceiveWindow :: s.freeRecv } id .recv

/-- Tell the application that streams were opened or became readable. -/
def onStreamFrame (s : StreamsState) (notifyReadable : Bool) (id : StreamId) : StreamsState :=
  if id.initiator = s.side then
    if notifyReadable then { s with events := s.events ++ [.readable id] } else s
  else if s.nextRemote id.dir ≤ id.index then
    { s with
      nextRemote := Function.update s.nextRemote id.dir (id.index + 1)
      opened := Function.update s.opened id.dir true }
  else if notifyReadable then { s with events := s.events ++ [.readable id] }
  else s

/-- Errors entailed by the peer's use of `id` as a stream it sends on. -/
def validateReceiveId (s : StreamsState) (id : StreamId) : Except TransportError Unit :=
  if s.side = id.initiator then
    match id.dir with
    | .uni => .error ⟨.streamStateError, "illegal operation on send-only stream"⟩
    | .bi =>
      if s.next .bi ≤ id.index then .error ⟨.streamStateError, "operation on unopened stream"⟩
      else .ok ()
  else if s.maxRemote id.dir ≤ id.index then .error ⟨.streamLimitError, ""⟩
  else .ok ()

/-- Forget a stream of our own; `none` where `unwrap` panics. -/
def forgetLocal (s : StreamsState) (id : StreamId) : Option StreamsState :=
  if (s.send id).isNone then none
  else if id.dir = .bi then
    if (s.recv id).isNone then none else some ((s.removeSend id).removeRecv id)
  else some (s.removeSend id)

def forgetDir (s : StreamsState) (dir : Dir) : Option StreamsState := do
  let s ← (List.range (s.next dir)).foldlM (fun s i => s.forgetLocal ⟨s.side, dir, i⟩) s
  return { s with
    next := Function.update s.next dir 0
    -- Whatever limits were announced in early data did not arrive.
    sentMaxRemote :=
      if s.flowControlAdjusted then Function.update s.sentMaxRemote dir 0 else s.sentMaxRemote }

/-- The peer does not accept early data; `none` is a panic. -/
def zeroRttRejected (s : StreamsState) : Option StreamsState := do
  let s ← Dir.all.foldlM forgetDir s
  return { s with
    pending := s.pending.clear
    sendStreams := 0
    dataSent := 0
    connectionBlocked := [] }

/-- Process a STREAM frame; the result tells whether to send MAX_DATA. -/
def received (s : StreamsState) (frame : StreamFrame) (payloadLen : Nat) :
    Except TransportError (Bool × StreamsState) := do
  s.validateReceiveId frame.id
  match s.getRecv frame.id with
  | none => return (false, s)
  | some rs =>
    let s := s.setRecv frame.id rs
    if !rs.isReceiving then return (false, s)
    else
      let (newBytes, closed, rs) ← rs.ingest frame payloadLen s.dataRecvd s.localMaxData
      let s := { s.setRecv frame.id rs with dataRecvd := (s.dataRecvd + newBytes).min (2 ^ 64 - 1) }
      if !rs.stopped then return (false, s.onStreamFrame true frame.id)
      else
        let s :=
          if closed then (s.removeRecv frame.id).streamRecvFreed frame.id (.opened rs) else s
        return s.addReadCredits newBytes

/-- Process a RESET_STREAM frame; the result tells whether to send MAX_DATA. -/
def receivedReset (s : StreamsState) (id : StreamId) (errorCode finalOffset : Nat) :
    Except TransportError (Bool × StreamsState) := do
  s.validateReceiveId id
  match s.getRecv id with
  | none => return (false, s)
  | some rs =>
    let s := s.setRecv id rs
    match ← rs.reset errorCode finalOffset s.dataRecvd s.localMaxData with
    | none => return (false, s)
    | some rs =>
      let s := s.setRecv id rs
      let s := if rs.stopped then (s.removeRecv id).streamRecvFreed id (.opened rs) else s
      let s := s.onStreamFrame (!rs.stopped) id
      if rs.assembler.bytesRead ≠ finalOffset then
        let s := { s with
          dataRecvd := (s.dataRecvd + wrappingSub finalOffset rs.stop).min (2 ^ 64 - 1) }
        return s.addReadCredits (wrappingSub finalOffset rs.assembler.bytesRead)
      else return (false, s)

def receivedStopSending (s : StreamsState) (id : StreamId) (errorCode : Nat) : StreamsState :=
  match s.getSend id with
  | none => s
  | some half =>
    let (stopped, half) := half.tryStop errorCode
    let s := s.setSend id half
    if stopped then
      StreamsState.onStreamFrame { s with events := s.events ++ [.stopped id errorCode] } false id
    else s

def resetAcked (s : StreamsState) (id : StreamId) : StreamsState :=
  match s.send id with
  | some (some half) =>
    if half.isReset then (s.removeSend id).streamFreed id .send else s
  | _ => s

def receivedAckOf (s : StreamsState) (frame : StreamMeta) : StreamsState :=
  match s.send frame.id with
  | some (some half) =>
    if half.isReset then s
    else
      let s := { s with unackedData := wrappingSub s.unackedData (frame.stop - frame.start) }
      let (finished, half) := half.ack frame
      if finished then
        let s := (s.removeSend frame.id).streamFreed frame.id .send
        { s with events := s.events ++ [.finished frame.id] }
      else s.setSend frame.id half
  | _ => s

def retransmit (s : StreamsState) (frame : StreamMeta) : StreamsState :=
  match s.send frame.id with
  | some (some half) =>
    let pending :=
      if half.isPending then s.pending else s.pending.pushPending frame.id half.priority
    StreamsState.setSend { s with pending } frame.id
      { half with
        finPending := half.finPending || frame.fin
        pending := half.pending.retransmit frame.start frame.stop }
  | _ => s

/-- The step of `retransmit_all_for_0rtt` for one stream. -/
def rewind (s : StreamsState) (id : StreamId) : StreamsState :=
  match s.send id with
  | some (some half) =>
    -- Early data is not acknowledged, so that nothing was sent on such a stream.
    if half.pending.isFullyAcked && !half.finPending then s
    else
      let pending :=
        if half.isPending then s.pending else s.pending.pushPending id half.priority
      StreamsState.setSend { s with pending } id
        { half with pending := half.pending.retransmitAllFor0rtt }
  | _ => s

def retransmitAllFor0rtt (s : StreamsState) : StreamsState :=
  Dir.all.foldl
    (fun s dir => (List.range (s.next dir)).foldl (fun s i => s.rewind ⟨.client, dir, i⟩) s) s

theorem retransmitAllFor0rtt_induct {P : StreamsState → Prop} {s : StreamsState}
    (hrewind : ∀ s id, P s → P (s.rewind id)) (h : P s) : P s.retransmitAllFor0rtt :=
  List.foldlRecOn _ _ h fun _ hs _ _ => List.foldlRecOn _ _ hs fun s hs _ _ => hrewind s _ hs

theorem retransmitAllFor0rtt_rest (s : StreamsState) :
    ∃ pending send, s.retransmitAllFor0rtt = { s with pending, send } := by
  refine retransmitAllFor0rtt_induct (P := fun t => ∃ pending send, t = { s with pending, send }) ?_
    ⟨_, _, rfl⟩
  rintro _ id ⟨pending, send, rfl⟩
  unfold rewind
  split
  · split_ifs <;> exact ⟨_, _, rfl⟩
  · exact ⟨_, _, rfl⟩

def receivedMaxStreams (s : StreamsState) (dir : Dir) (count : Nat) :
    Except TransportError StreamsState :=
  if maxStreamCount < count then .error ⟨.frameEncodingError, "unrepresentable stream limit"⟩
  else if s.max dir < count then
    .ok { s with
      max := Function.update s.max dir count
      streamsBlocked := Function.update s.streamsBlocked dir false
      events := s.events ++ [.available dir] }
  else .ok s

def receivedMaxStreamData (s : StreamsState) (id : StreamId) (offset : Nat) :
    Except TransportError StreamsState :=
  if id.initiator ≠ s.side ∧ id.dir = .uni then
    .error ⟨.streamStateError, "MAX_STREAM_DATA on recv-only stream"⟩
  else
    match s.getSend id with
    | some half =>
      let (unblocked, half) := half.increaseMaxData offset
      if unblocked then
        if 0 < s.writeLimit then
          .ok (StreamsState.onStreamFrame
            { s.setSend id half with events := s.events ++ [.writable id] } false id)
        else if !half.connectionBlocked then
          .ok (StreamsState.onStreamFrame
            { s.setSend id { half with connectionBlocked := true } with
              connectionBlocked := s.connectionBlocked ++ [id] } false id)
        else .ok ((s.setSend id half).onStreamFrame false id)
      else .ok ((s.setSend id half).onStreamFrame false id)
    | none =>
      if id.initiator = s.side ∧ s.isLocalUnopened id then
        .error ⟨.streamStateError, "MAX_STREAM_DATA on unopened stream"⟩
      else .ok (s.onStreamFrame false id)

/-- Pop blocked streams until one is worth reporting; `connection_blocked` is a
stack whose top is the last element. -/
def pollBlocked (s : StreamsState) : List StreamId → Option StreamId × StreamsState
  | [] => (none, { s with connectionBlocked := [] })
  | id :: rest =>
    match s.send id with
    | some (some half) =>
      let s := s.setSend id { half with connectionBlocked := false }
      if half.isWritable && decide (half.offset < half.maxData) then
        (some id, { s with connectionBlocked := rest.reverse })
      else pollBlocked s rest
    | _ => pollBlocked s rest

def poll (s : StreamsState) : Option StreamEvent × StreamsState :=
  match Dir.all.find? s.opened with
  | some dir => (some (.opened dir), { s with opened := Function.update s.opened dir false })
  | none =>
    let (blocked, s) :=
      if 0 < s.writeLimit then s.pollBlocked s.connectionBlocked.reverse else (none, s)
    match blocked with
    | some id => (some (.writable id), s)
    | none => (s.events.head?, { s with events := s.events.tail })

def lower (half : Send) : Send :=
  { half with connectionBlocked := false }

/-- What `poll` reports and changes: of the halves only flags that it lowers. -/
inductive Polls (s : StreamsState) : Option StreamEvent → StreamsState → Prop
  | opened {dir : Dir} (h : s.opened dir = true) :
      Polls s (some (.opened dir)) { s with opened := Function.update s.opened dir false }
  | writable {id : StreamId} {send : StreamId → Option (Option Send)}
      {connectionBlocked : List StreamId}
      (hsend : ∀ id, (getSend { s with send } id).map lower = (s.getSend id).map lower)
      (h : connectionBlocked.length < s.connectionBlocked.length) :
      Polls s (some (.writable id)) { s with send, connectionBlocked }
  | event {event : Option StreamEvent} {send : StreamId → Option (Option Send)}
      {connectionBlocked : List StreamId} (hevent : s.events.head? = event)
      (hsend : ∀ id, (getSend { s with send } id).map lower = (s.getSend id).map lower)
      (h : connectionBlocked.length ≤ s.connectionBlocked.length)
      (hclosed : ∀ dir, s.opened dir = false) (hall : 0 < s.writeLimit → connectionBlocked = []) :
      Polls s event { s with send, connectionBlocked, events := s.events.tail }

theorem pollBlocked_spec (s : StreamsState) (ids : List StreamId) :
    ∃ send connectionBlocked, (s.pollBlocked ids).2 = { s with send, connectionBlocked } ∧
      (∀ id, (getSend { s with send } id).map lower = (s.getSend id).map lower) ∧
      connectionBlocked.length + (s.pollBlocked ids).1.toList.length ≤ ids.length ∧
      ((s.pollBlocked ids).1 = none → connectionBlocked = []) := by
  induction ids generalizing s with
  | nil => exact ⟨s.send, [], rfl, fun _ => rfl, Nat.le_refl 0, fun _ => rfl⟩
  | cons id _ ih =>
    unfold pollBlocked
    split
    · rename_i half hid
      have hset : ∀ j,
          ((s.setSend id { half with connectionBlocked := false }).getSend j).map lower =
          (s.getSend j).map lower := by
        intro j
        by_cases hj : j = id
        · simp [getSend, setSend, hj, hid, lower]
        · simp only [getSend, setSend, Function.update_of_ne hj]
          rfl
      split_ifs
      · exact ⟨_, _, rfl, hset, by simp, by simp⟩
      · obtain ⟨send, blocked, heq, hsend, hlength, hnone⟩ := ih (s.setSend id _)
        exact ⟨send, blocked, heq, fun j => (hsend j).trans (hset j),
          Nat.le_succ_of_le hlength, hnone⟩
    · obtain ⟨send, blocked, heq, hsend, hlength, hnone⟩ := ih s
      exact ⟨send, blocked, heq, hsend, Nat.le_succ_of_le hlength, hnone⟩

theorem poll_spec {s s' : StreamsState} {event : Option StreamEvent} (h : s.poll = (event, s')) :
    Polls s event s' := by
  unfold poll at h
  split at h
  · rename_i dir hdir
    cases h
    exact .opened (List.find?_some hdir)
  · rename_i hdir
    have hclosed : ∀ dir, s.opened dir = false := fun dir => by
      simpa using List.find?_eq_none.mp hdir dir (by cases dir <;> simp [Dir.all])
    split_ifs at h with hlimit
    · obtain ⟨send, blocked, heq, hsend, hlength, hnone⟩ :=
        pollBlocked_spec s s.connectionBlocked.reverse
      generalize s.pollBlocked s.connectionBlocked.reverse = r at *
      rw [List.length_reverse] at hlength
      rcases r with ⟨_ | id, t⟩ <;> cases heq <;> cases h
      · exact .event rfl hsend hlength hclosed fun _ => hnone rfl
      · exact .writable hsend hlength
    · cases h
      exact .event rfl (fun _ => rfl) (Nat.le_refl _) hclosed fun hpos => absurd hpos hlimit

/-- Queue MAX_STREAMS frames where enough of the window was consumed. -/
def queueMaxStreamId (s : StreamsState) (pending : Retransmits) : Retransmits :=
  { pending with
    maxStreamId := fun dir =>
      pending.maxStreamId dir ||
        decide (s.maxConcurrentRemoteCount dir / 8 < s.maxRemote dir - s.sentMaxRemote dir) }

end StreamsState

end Quac.Streams
