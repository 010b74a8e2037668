import Quac.RecvSteps
import Quac.StreamAccounts

/-!
The sending side of the streams: what it consists of, and the operations that leave it
alone.  Reading, stopping and receiving only admit further streams of the peer, whose
sending halves come into being when they are used.
-/

namespace Quac.SendPath

open Identifiers RecvSteps StreamAccess StreamAccounts Streams StreamsState

/-- A stream of the peer that only the later limit admits. -/
def Admitted (s s' : StreamsState) (id : StreamId) : Prop :=
  id.initiator ≠ s.side ∧ s.maxRemote id.dir ≤ id.index ∧ id.index < s'.maxRemote id.dir

/-- The sending side stays as it is, but for streams of the peer that are admitted. -/
structure Kept (s s' : StreamsState) : Prop where
  side : s'.side = s.side
  next : s'.next = s.next
  maxRemote : ∀ dir, s.maxRemote dir ≤ s'.maxRemote dir
  send : ∀ id, s'.send id = s.send id ∨ Admitted s s' id ∧ s'.send id = some none
  sendStreams : s'.sendStreams = s.sendStreams
  pending : s'.pending = s.pending
  connectionBlocked : s'.connectionBlocked = s.connectionBlocked
  writeLimit : s'.writeLimit = s.writeLimit
  maxSendData : s'.maxSendData = s.maxSendData
  events : s.events <+: s'.events

variable {s s' s'' : StreamsState} {id : StreamId}

theorem Kept.refl (s : StreamsState) : Kept s s :=
  ⟨rfl, rfl, fun _ => le_rfl, fun _ => .inl rfl, rfl, rfl, rfl, rfl, rfl, List.prefix_refl _⟩

theorem Kept.trans (h : Kept s s') (h' : Kept s' s'') : Kept s s'' where
  side := h'.side.trans h.side
  next := h'.next.trans h.next
  maxRemote dir := le_trans (h.maxRemote dir) (h'.maxRemote dir)
  send id := by
    rcases h'.send id with heq | ⟨⟨hside, hle, hlt⟩, hnew⟩
    · rw [heq]
      rcases h.send id with heq' | ⟨⟨hside, hle, hlt⟩, hnew⟩
      · exact .inl heq'
      · exact .inr ⟨⟨hside, hle, lt_of_lt_of_le hlt (h'.maxRemote _)⟩, hnew⟩
    · refine .inr ⟨⟨?_, le_trans (h.maxRemote _) hle, hlt⟩, hnew⟩
      rw [← h.side]
      exact hside
  sendStreams := h'.sendStreams.trans h.sendStreams
  pending := h'.pending.trans h.pending
  connectionBlocked := h'.connectionBlocked.trans h.connectionBlocked
  writeLimit := h'.writeLimit.trans h.writeLimit
  maxSendData := h'.maxSendData.trans h.maxSendData
  events := h.events.trans h'.events

theorem kept_onStreamFrame (s : StreamsState) (notifyReadable : Bool) (id : StreamId) :
    Kept s (s.onStreamFrame notifyReadable id) := by
  unfold onStreamFrame
  split_ifs <;> exact ⟨rfl, rfl, fun _ => le_rfl, fun _ => .inl rfl, rfl, rfl, rfl, rfl, rfl,
    by first | exact List.prefix_refl _ | exact List.prefix_append _ _⟩

theorem kept_ensureRemoteStreams (s : StreamsState) (dir : Dir) :
    Kept s (s.ensureRemoteStreams dir) := by
  unfold ensureRemoteStreams
  dsimp only
  generalize s.maxConcurrentRemoteCount dir - s.allocatedRemoteCount dir = n
  have hrest := insertRemote_rest (s := s) dir (s.maxRemote dir) n
  have hsend := send_insertRemote (s := s) dir (s.maxRemote dir) n
  generalize s.insertRemote dir (s.maxRemote dir) n = t at hrest hsend
  have hmax : t.maxRemote = s.maxRemote := by rw [hrest]
  have hle : ∀ d, s.maxRemote d ≤ Function.update t.maxRemote dir (t.maxRemote dir + n) d := by
    rw [hmax]
    exact Accounts.le_update_add s.maxRemote dir n
  refine ⟨?_, ?_, hle, fun id => ?_, ?_, ?_, ?_, ?_, ?_, ?_⟩
  · rw [hrest]
  · rw [hrest]
  · rw [hsend id]
    split_ifs with hnew
    · obtain ⟨⟨hpeer, hdir, hge, hlt⟩, -⟩ := hnew
      refine .inr ⟨⟨?_, ?_, ?_⟩, rfl⟩
      · rw [hpeer]
        exact Accounts.peer_ne s.side
      · rw [hdir]
        exact hge
      · rw [hdir]
        simp only [Function.update_self, hmax]
        exact hlt
    · exact .inl rfl
  · rw [hrest]
  · rw [hrest]
  · rw [hrest]
  · rw [hrest]
    rfl
  · rw [hrest]
    rfl
  · have hevents : s.events = _ := (congrArg events hrest).symm
    exact hevents ▸ List.prefix_refl _

theorem kept_streamFreed (s : StreamsState) (id : StreamId) : Kept s (s.streamFreed id .recv) := by
  unfold streamFreed
  dsimp only
  have hsame := Kept.refl s
  split_ifs
  · refine Kept.trans ?_ (kept_ensureRemoteStreams _ _)
    exact { hsame with }
  · exact hsame

theorem streamFreed_send (s : StreamsState) (id : StreamId) :
    ∃ t, Kept s t ∧ s.streamFreed id .send = { t with sendStreams := s.sendStreams - 1 } := by
  have hsame := Kept.refl s
  unfold streamFreed
  dsimp only
  split_ifs
  · refine ⟨ensureRemoteStreams { s with
      allocatedRemoteCount := Function.update s.allocatedRemoteCount id.dir
        (s.allocatedRemoteCount id.dir - 1) } id.dir, ?_, ?_⟩
    · refine Kept.trans ?_ (kept_ensureRemoteStreams _ _)
      exact { hsame with }
    · rw [(kept_ensureRemoteStreams _ _).sendStreams]
  · exact ⟨s, hsame, rfl⟩

theorem kept_recvStep {heard : Prop} (h : RecvStep heard s s') : Kept s s' := by
  have hsame := Kept.refl s
  cases h with
  | freed id =>
    refine Kept.trans ?_ (kept_streamFreed _ id)
    exact { hsame with }
  | credited =>
    unfold addReadCredits
    dsimp only
    split_ifs <;> exact { hsame with }
  | announced _ notify id => exact kept_onStreamFrame s notify id
  | _ => exact { hsame with }

theorem Kept.of_absorbs (h : Absorbs True s s') : Kept s s' := by
  induction h with
  | refl => exact .refl s
  | tail _ hstep ih => exact ih.trans (kept_recvStep hstep)

theorem kept_acceptStream (s : StreamsState) (dir : Dir) :
    Kept s { (acceptStream s dir).2 with sendStreams := s.sendStreams } := by
  have hsame := Kept.refl s
  unfold acceptStream
  split_ifs <;> exact { hsame with }

theorem kept_setReceiveWindow (s : StreamsState) (receiveWindow : Nat) :
    Kept s (s.setReceiveWindow receiveWindow).2 := by
  have hsame := Kept.refl s
  unfold setReceiveWindow
  split_ifs <;> exact { hsame with }

theorem kept_setMaxConcurrent (s : StreamsState) (dir : Dir) (count : Nat) :
    Kept s (s.setMaxConcurrent dir count) := by
  have hsame := Kept.refl s
  refine Kept.trans ?_ (kept_ensureRemoteStreams _ dir)
  exact { hsame with }

end Quac.SendPath
