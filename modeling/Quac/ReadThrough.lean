import Quac.EngineSettles
import Quac.ReadableStreams

/-!
Reading a stream until nothing is left, and what polling a connection says about its
readable streams.
-/

namespace Quac.ReadThrough

open Identifiers ProtoConnection ReadableStreams RecvHalf StreamAccess
open StreamSignals Streams TileEngine

theorem streams_poll_readable {s s' : StreamsState} {event : Option StreamEvent}
    (h : s.poll = (event, s')) : s'.recv = s.recv ∧ s'.freeRecv = s.freeRecv ∧
      ∀ id, .readable id ∈ s.events → .readable id ∈ s'.events ∨ event = some (.readable id) := by
  cases StreamsState.poll_spec h with
  | opened | writable => exact ⟨rfl, rfl, fun _ hid => .inl hid⟩
  | event hevent =>
    refine ⟨rfl, rfl, fun id hid => ?_⟩
    rcases hs : s.events with _ | ⟨_, _⟩ <;> rw [hs] at hid hevent
    · cases hid
    · rcases List.mem_cons.mp hid with rfl | hmem
      · exact .inr hevent.symm
      · exact .inl hmem

theorem poll_readable {c inner : Connection} {event : Option Event} (h : c.poll = (event, inner)) :
    inner.streams.recv = c.streams.recv ∧ inner.streams.freeRecv = c.streams.freeRecv ∧
      (∀ id, .readable id ∈ c.streams.events →
        .readable id ∈ inner.streams.events ∨ event = some (.stream (.readable id))) ∧
      inner.streams.side = c.streams.side ∧ inner.streams.nextRemote = c.streams.nextRemote ∧
      inner.streams.nextReportedRemote = c.streams.nextReportedRemote := by
  obtain ⟨hside, -, hremote, hreported⟩ := poll_counts c.streams
  unfold Connection.poll at h
  split at h
  · cases h
    exact ⟨rfl, rfl, fun id hid => .inl hid, rfl, rfl, rfl⟩
  · split at h
    · rename_i event streams hpoll
      cases h
      obtain ⟨hrecv, hfree, hevents⟩ := streams_poll_readable hpoll
      rw [hpoll] at hside hremote hreported
      refine ⟨hrecv, hfree, fun id hid => (hevents id hid).imp_right fun heq => ?_, hside, hremote,
        hreported⟩
      cases heq
      rfl
    · rename_i streams hpoll
      obtain ⟨hrecv, hfree, hevents⟩ := streams_poll_readable hpoll
      rw [hpoll] at hside hremote hreported
      have hnone : ∀ id, .readable id ∈ c.streams.events → .readable id ∈ streams.events :=
        fun id hid => (hevents id hid).resolve_right (by simp)
      split at h <;> cases h <;>
        exact ⟨hrecv, hfree, fun id hid => .inl (hnone id hid), hside, hremote, hreported⟩

/-! A read in progress. -/

theorem quiet_next (c : Chunks) (maxLength : Nat) :
    (c.next maxLength).2.id = c.id ∧ Quiet c.streams (c.next maxLength).2.streams := by
  unfold Chunks.next
  split
  · exact ⟨rfl, .refl⟩
  · exact ⟨rfl, .refl⟩
  · split
    · exact ⟨rfl, .refl⟩
    · dsimp only
      split
      · exact ⟨rfl, .streamRecvFreed _ _⟩
      · split_ifs
        · exact ⟨rfl, .streamRecvFreed _ _⟩
        · exact ⟨rfl, .refl⟩

theorem quiet_readChunks (c : Chunks) (room : Nat) : (Engine.readChunks c room).2.2.id = c.id ∧
      Quiet c.streams (Engine.readChunks c room).2.2.streams := by
  induction room generalizing c with
  | zero => exact ⟨rfl, .refl⟩
  | succ _ ih =>
    have hnext := quiet_next c 65536
    unfold Engine.readChunks
    split <;> (rename_i c' heq; rw [heq] at hnext)
    · obtain ⟨hid, hquiet⟩ := ih c'
      exact ⟨hid.trans hnext.1, hnext.2.trans hquiet⟩
    · exact hnext
    · exact hnext

theorem finalize_half (c : Chunks) (pending : Retransmits) :
    Advances c.streams (c.finalize pending).1 ∧ half (c.finalize pending).1 c.id =
        (match c.state with
        | .readable recv => some { recv with sentMaxStreamData := 0 }
        | .reset _ | .finished => half c.streams c.id) ∧
      ∀ j, j ≠ c.id → half (c.finalize pending).1 j = half c.streams j := by
  have hcredits : ∀ (s : StreamsState) n j, half (s.addReadCredits n).2 j = half s j := by
    intro s n j
    unfold StreamsState.addReadCredits
    dsimp only
    split_ifs <;> rfl
  rcases hstate : c.state with recv | _ | _ <;> simp only [Chunks.finalize, hstate]
  · refine ⟨?_, ?_, fun j hne => ?_⟩
    · exact (Advances.of_sameCounts (.setRecv c.id recv) id).trans
        (Quiet.addReadCredits c.read).toAdvances
    · rw [hcredits, half_setRecv, if_pos rfl]
    · rw [hcredits, half_setRecv, if_neg hne]
  all_goals exact ⟨(Quiet.addReadCredits c.read).toAdvances, hcredits _ _ _,
    fun j _ => hcredits _ _ _⟩

/-- With more room than there are pieces, the read ends because nothing is left. -/
theorem readChunks_ends {c : Chunks} {recv : Recv} {room : Nat} (hstate : c.state = .readable recv)
    (hordered : c.ordered = true) (hpos : 0 < room)
    (hroom : (recv.assembler.read 65536 true).1.isSome = true →
      recv.assembler.pieces 65536 < room) :
    match (Engine.readChunks c room).2.2.state with
    | .readable recv' => ¬ HasNext recv'
    | .reset _ | .finished => True := by
  induction room generalizing c recv with
  | zero => exact absurd hpos (lt_irrefl 0)
  | succ _ ih =>
    unfold Engine.readChunks Chunks.next
    simp only [hstate, hordered]
    rcases hread : recv.assembler.read 65536 true with ⟨_ | _, _⟩
    · rcases hrecv : recv.state with size | ⟨_, _⟩
      · dsimp only
        split_ifs with hend
        · trivial
        · obtain ⟨-, hagain⟩ := Reassembly.Assembler.read_none hread
          rintro ⟨-, -, hsome | ⟨hfinal, hall⟩⟩
          · rw [hagain] at hsome
            cases hsome
          · rw [hagain] at hall
            exact hend ⟨RecvState.recv.inj hfinal, hall⟩
      · trivial
    · have hless := Reassembly.Assembler.read_some (by decide) hread
      have hfits := hroom (by rw [hread]; rfl)
      exact ih rfl rfl (by omega) fun _ => by dsimp only; omega

/-- What a read of a stream leaves: the stream has nothing more, the others are as
they were or new. -/
structure Drained (id : StreamId) (s s' : StreamsState) : Prop extends Advances s s' where
  empty : FreshFree s → ¬ Readable s' id
  others : FreshFree s → ∀ j, j ≠ id → Readable s' j → Readable s j ∧ pieces s' j = pieces s j

theorem drained_read {s : StreamsState} {id : StreamId} {chunks : Chunks} {room : Nat}
    (hnew : Chunks.new id true s = .ok chunks) (hpos : 0 < room)
    (hroom : Readable s id → pieces s id < room) (pending : Retransmits) :
    Drained id s ((Engine.readChunks chunks room).2.2.finalize pending).1 := by
  obtain ⟨recv, hrecv, hstopped, hordered, rfl⟩ := chunks_new_eq_ok.mp hnew
  obtain ⟨hid, hquiet⟩ := quiet_readChunks ⟨id, true, s.removeRecv id, .readable recv, 0⟩ room
  have hends := readChunks_ends (c := ⟨id, true, s.removeRecv id, .readable recv, 0⟩) rfl rfl hpos
    fun hsome => by
      have hreadable : Readable s id := readable_iff.mpr
        ⟨{ recv with sentMaxStreamData := 0 }, by simp [half, hrecv], hstopped,
          hordered, .inl hsome⟩
      have hfits := hroom hreadable
      rwa [pieces, hrecv] at hfits
  generalize (Engine.readChunks ⟨id, true, s.removeRecv id, .readable recv, 0⟩ room).2.2 = c
    at hid hquiet hends
  obtain ⟨hadvances, hself, hothers⟩ := finalize_half c pending
  rw [show c.id = id from hid] at hself hothers
  have hremoved : Quiet s c.streams := (Quiet.removeRecv id).trans hquiet
  refine ⟨hremoved.toAdvances.trans hadvances, fun hfresh => ?_, fun hfresh j hne hj => ?_⟩
  · rcases hstate : c.state with _ | _ | _
    · rw [hstate] at hself hends
      rw [readable_iff, hself]
      rintro ⟨_, heq, hnext⟩
      cases heq
      exact hends hnext
    all_goals
      rw [hstate] at hself
      rw [readable_congr hself]
      intro hread
      exact not_readable_of_none (by rw [half_removeRecv, if_pos rfl])
        (hquiet.readable ((Quiet.removeRecv id).fresh hfresh) hread).1
  · have hhalf := hothers j hne
    obtain ⟨hread, hpieces⟩ := hremoved.readable hfresh ((readable_congr hhalf).mp hj)
    exact ⟨hread, (pieces_congr hhalf).trans hpieces⟩

theorem drained_error {s s' : StreamsState} {id : StreamId} {error : ReadableError}
    (hnew : Chunks.new id true s = .error (error, s')) : Drained id s s' := by
  have hquiet : Quiet s s' := by
    unfold Chunks.new at hnew
    split at hnew
    · cases hnew
      exact .refl
    · rename_i recv hrecv
      split_ifs at hnew
      · cases hnew
        exact .getRecv hrecv
      · split at hnew <;> cases hnew
        exact .removeRecv id
  refine ⟨hquiet.toAdvances, fun hfresh hread => ?_, fun hfresh j _ hj => hquiet.readable hfresh hj⟩
  obtain ⟨_, -, -, hok, -⟩ := (hquiet.readable hfresh hread).1
  rw [hnew] at hok
  cases hok

end Quac.ReadThrough
