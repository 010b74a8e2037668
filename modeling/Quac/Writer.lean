import Quac.AddressToken
import Quac.Lib.BoundedQueue

/-!
The way of an outgoing batch of datagrams: the engine queues what `poll_transmit`
returned, the writer thread of the network tile takes it from the queue, and the
socket turns it into message headers for `sendmmsg`.
-/

namespace Quac.Writer

open AddressToken Lib.BoundedQueue List

inductive EcnCodepoint
  | ect0
  | ect1
  | ce

structure ProtoTransmit where
  destination : SocketAddr
  ecn : Option EcnCodepoint
  size : Nat
  segmentSize : Option Nat
  srcIp : Option IpAddr

structure TxPacket where
  destination : SocketAddr
  ecn : Option EcnCodepoint
  payload : List UInt8
  segmentSize : Option Nat
  srcIp : Option IpAddr

/-- The end of the loop body of `drive_transmit`; a full queue drops the packet. -/
def enqueueTransmit (txQueue : ArrayQueue TxPacket) (transmit : ProtoTransmit)
    (sendBuf : List UInt8) : ArrayQueue TxPacket :=
  (txQueue.push
    { destination := transmit.destination
      ecn := transmit.ecn
      payload := sendBuf.take transmit.size
      segmentSize := transmit.segmentSize
      srcIp := transmit.srcIp }).getD txQueue

structure Segment where
  buf : List UInt8
  offset : Nat
  len : Nat

def Segment.slice (segment : Segment) : List UInt8 :=
  (segment.buf.drop segment.offset).take segment.len

structure Transmit where
  destination : SocketAddr
  ecn : Option EcnCodepoint
  segments : List Segment
  segmentSize : Option Nat
  srcIp : Option IpAddr

/-- What `sendmmsg` reads of a `mmsghdr`. -/
structure MessageHeader where
  name : SocketAddr
  iov : List (List UInt8)
  /-- The segment size of a `UDP_SEGMENT` control message. -/
  control : Option Nat

/-- The headers are zeroed, so they have no control message. -/
def messageHeader (transmit : Transmit) : MessageHeader where
  name := transmit.destination
  iov := transmit.segments.map Segment.slice
  control := none

def batch : Nat := 64

/-- The loop of `OsSocket::send` when every `sendmmsg` accepts its whole batch. -/
def sendLoop : Nat → List Transmit → List MessageHeader
  | 0, _ => []
  | fuel + 1, transmits =>
    if transmits.isEmpty then []
    else (transmits.take batch).map messageHeader ++ sendLoop fuel (transmits.drop batch)

def send (transmits : List Transmit) : List MessageHeader :=
  sendLoop transmits.length transmits

structure Datagram where
  destination : SocketAddr
  payload : List UInt8
  deriving DecidableEq

def cutInto (size : Nat) : Nat → List UInt8 → List (List UInt8)
  | 0, _ => []
  | fuel + 1, payload =>
    if payload.isEmpty then []
    else payload.take size :: cutInto size fuel (payload.drop size)

def pieces (size : Nat) (payload : List UInt8) : List (List UInt8) :=
  cutInto size payload.length payload

def segmented (segmentSize : Option Nat) (payload : List UInt8) : List (List UInt8) :=
  match segmentSize with
  | none => [payload]
  | some size => pieces size payload

/-- The kernel's part: one datagram for each header, or one for each segment if
there is a control message. -/
def emitted (header : MessageHeader) : List Datagram :=
  (segmented header.control header.iov.flatten).map (Datagram.mk header.name)

/-- What `run_writer` hands to the socket for a packet from a queue. -/
def writerTransmit (packet : TxPacket) : Transmit where
  destination := packet.destination
  ecn := packet.ecn
  segments := [{ buf := packet.payload, offset := 0, len := packet.payload.length }]
  segmentSize := packet.segmentSize
  srcIp := packet.srcIp

/-- `while let Some(pkt) = queue.pop()`; the fuel is the number of packets. -/
def drainQueue : Nat → ArrayQueue TxPacket → List Datagram
  | 0, _ => []
  | fuel + 1, queue =>
    match queue.pop with
    | none => []
    | some (packet, queue) =>
      (send [writerTransmit packet]).flatMap emitted ++ drainQueue fuel queue

def writerRound (txQueues : List (ArrayQueue TxPacket)) : List Datagram :=
  txQueues.flatMap fun queue => drainQueue queue.items.length queue

def ProtoTransmit.datagrams (transmit : ProtoTransmit) (sendBuf : List UInt8) : List Datagram :=
  (segmented transmit.segmentSize (sendBuf.take transmit.size)).map
    (Datagram.mk transmit.destination)

theorem sendLoop_eq_map {fuel : Nat} {transmits : List Transmit} (h : transmits.length ≤ fuel) :
    sendLoop fuel transmits = transmits.map messageHeader := by
  induction fuel generalizing transmits with
  | zero =>
    have hnil : transmits = [] := length_eq_zero_iff.mp (Nat.le_zero.mp h)
    rw [hnil]
    rfl
  | succ fuel ih =>
    cases transmits with
    | nil => rfl
    | cons transmit rest =>
      have hrest : ((transmit :: rest).drop batch).length ≤ fuel := by
        rw [length_drop]
        simp only [length_cons, batch] at h ⊢
        omega
      rw [sendLoop, if_neg (by simp), ih hrest, ← map_append, take_append_drop]

/-- Batching does not change what is sent. -/
theorem send_eq_map (transmits : List Transmit) : send transmits = transmits.map messageHeader :=
  sendLoop_eq_map le_rfl

theorem drainQueue_eq_map (fuel : Nat) (queue : ArrayQueue TxPacket)
    (h : queue.items.length ≤ fuel) :
    drainQueue fuel queue = queue.items.map fun packet => ⟨packet.destination, packet.payload⟩ := by
  induction fuel generalizing queue with
  | zero =>
    have hnil : queue.items = [] := length_eq_zero_iff.mp (Nat.le_zero.mp h)
    rw [hnil]
    rfl
  | succ fuel ih =>
    rw [drainQueue]
    cases hpop : queue.pop with
    | none => rw [ArrayQueue.pop_eq_none hpop, map_nil]
    | some popped =>
      obtain ⟨packet, rest⟩ := popped
      have hitems := (ArrayQueue.pop_eq_some hpop).2
      have hrest : rest.items.length ≤ fuel := by
        rw [hitems, length_cons] at h
        exact Nat.le_of_succ_le_succ h
      rw [hitems, map_cons]
      dsimp only
      have hone : (send [writerTransmit packet]).flatMap emitted =
          [⟨packet.destination, packet.payload⟩] := by
        simp [send_eq_map, messageHeader, writerTransmit, emitted, segmented, Segment.slice]
      rw [hone, ih rest hrest, singleton_append]

/-- A round sends the queued packets in order, one datagram each. -/
theorem writerRound_eq (txQueues : List (ArrayQueue TxPacket)) :
    writerRound txQueues = txQueues.flatMap fun queue =>
      queue.items.map fun packet => ⟨packet.destination, packet.payload⟩ := by
  unfold writerRound
  congr 1
  funext queue
  exact drainQueue_eq_map _ queue le_rfl

theorem writerRound_append (first second : List (ArrayQueue TxPacket)) :
    writerRound (first ++ second) = writerRound first ++ writerRound second := by
  rw [writerRound, flatMap_append]
  rfl

theorem enqueueTransmit_items (txQueue : ArrayQueue TxPacket) (transmit : ProtoTransmit)
    (sendBuf : List UInt8) :
    ((enqueueTransmit txQueue transmit sendBuf).items.map fun packet =>
        (⟨packet.destination, packet.payload⟩ : Datagram)) =
      (txQueue.items.map fun packet => ⟨packet.destination, packet.payload⟩) ++
        if txQueue.items.length < txQueue.capacity then
          [⟨transmit.destination, sendBuf.take transmit.size⟩]
        else [] := by
  unfold enqueueTransmit ArrayQueue.push
  split_ifs with hroom
  · rw [Option.getD_some, map_append]
    rfl
  · rw [Option.getD_none, append_nil]

variable {payload : List UInt8}

theorem pieces_eq_singleton_iff {size : Nat} (h : 0 < payload.length) :
    pieces size payload = [payload] ↔ payload.length ≤ size := by
  obtain ⟨fuel, hfuel⟩ : ∃ fuel, payload.length = fuel + 1 := ⟨payload.length - 1, by omega⟩
  have hne : ¬ payload.isEmpty := by
    rw [List.isEmpty_iff]
    exact length_pos_iff.mp h
  rw [pieces, hfuel, cutInto, if_neg hne, ← hfuel]
  constructor
  · intro heq
    have hfirst := congrArg length (cons.inj heq).1
    rw [length_take] at hfirst
    omega
  · intro hle
    rw [take_of_length_le hle, drop_of_length_le hle]
    cases fuel <;> rfl

theorem segmented_eq_singleton_iff {segmentSize : Option Nat} (h : 0 < payload.length) :
    segmented segmentSize payload = [payload] ↔
      ∀ size, segmentSize = some size → payload.length ≤ size := by
  cases segmentSize with
  | none => simp [segmented]
  | some => simp [segmented, pieces_eq_singleton_iff h]

theorem segmented_ne_nil {segmentSize : Option Nat}
    (h : 0 < payload.length) : segmented segmentSize payload ≠ [] := by
  cases payload with
  | nil => simp at h
  | cons => cases segmentSize <;> simp [segmented, pieces, cutInto]

variable {transmit : ProtoTransmit} {sendBuf : List UInt8}

/-- What a round of the writer sends for a batch is the batch exactly when the
queue had room for it and it is a single datagram. -/
theorem batch_sent_iff (before after : List (ArrayQueue TxPacket)) (txQueue : ArrayQueue TxPacket)
    (hpos : 0 < transmit.size) (hsize : transmit.size ≤ sendBuf.length) :
    writerRound (before ++ enqueueTransmit txQueue transmit sendBuf :: after) =
        writerRound (before ++ [txQueue]) ++ transmit.datagrams sendBuf ++ writerRound after ↔
      txQueue.items.length < txQueue.capacity ∧
        ∀ size, transmit.segmentSize = some size → transmit.size ≤ size := by
  have hlength : (sendBuf.take transmit.size).length = transmit.size :=
    length_take_of_le hsize
  have hpayload : 0 < (sendBuf.take transmit.size).length := by omega
  rw [append_cons, writerRound_append, writerRound_append, writerRound_append,
    append_cancel_right_eq, append_assoc, append_cancel_left_eq,
    writerRound_eq [_], writerRound_eq [_], flatMap_singleton, flatMap_singleton,
    enqueueTransmit_items, append_cancel_left_eq, ProtoTransmit.datagrams]
  rw [← hlength, ← segmented_eq_singleton_iff hpayload, hlength]
  split_ifs with hroom
  · -- one datagram against the batch: compare the payloads
    rw [show ([⟨transmit.destination, sendBuf.take transmit.size⟩] : List Datagram) =
      [sendBuf.take transmit.size].map (Datagram.mk transmit.destination) from rfl]
    rw [map_inj_right fun _ _ h => (Datagram.mk.inj h).2]
    exact ⟨fun h => ⟨hroom, h.symm⟩, fun h => h.2.symm⟩
  · refine iff_of_false (fun h => ?_) fun h => hroom h.1
    exact segmented_ne_nil hpayload (map_eq_nil_iff.mp h.symm)

def fullBatch (count : Nat) : ProtoTransmit where
  destination := .v4 ⟨[192, 0, 2, 1], rfl⟩ 4433
  ecn := none
  size := count * 1200
  segmentSize := if count = 1 then none else some 1200
  srcIp := none

theorem single_datagram_sent :
    writerRound [enqueueTransmit (.new 1024) (fullBatch 1) (List.replicate 1200 0)] =
      (fullBatch 1).datagrams (List.replicate 1200 0) :=
  have hpos : 0 < (fullBatch 1).size := by decide
  have hsize : (fullBatch 1).size ≤ (replicate 1200 (0 : UInt8)).length := by
    rw [length_replicate]
    exact le_rfl
  have hsent := (batch_sent_iff [] [] (.new 1024) hpos hsize).mpr
    ⟨by decide, by simp [fullBatch]⟩
  hsent.trans (append_nil _)

/-- Two datagrams leave as one of twice the size. -/
theorem two_datagrams_merged : (fullBatch 2).segmentSize = some 1200 ∧
    writerRound [enqueueTransmit (.new 1024) (fullBatch 2) (List.replicate 2400 0)] =
      [⟨(fullBatch 2).destination, List.replicate 2400 0⟩] ∧
    (fullBatch 2).datagrams (List.replicate 2400 0) =
      [⟨(fullBatch 2).destination, List.replicate 1200 0⟩,
        ⟨(fullBatch 2).destination, List.replicate 1200 0⟩] := by
  refine ⟨rfl, ?_, ?_⟩
  · decide +kernel
  · decide +kernel

end Quac.Writer
