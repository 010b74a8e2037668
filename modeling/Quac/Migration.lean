import Quac.Recovery

/-!
Where a server sends when its client moves: the path in use, the one path that is kept
from before, and the challenge that a new path has to answer.

A trail of the peer's addresses says what this is for.  The connection is established
and lets its client migrate.
-/

namespace Quac.Migration

open Identifiers Lib.Transition
open Recovery (Frame)

variable {Addr : Type} [DecidableEq Addr]

structure PathData (Addr : Type) where
  remote : Addr
  /-- The token of the PATH_CHALLENGE that was not answered yet. -/
  challenge : Option Nat
  /-- The peer can both send and receive on this address. -/
  validated : Bool

structure Connection (Addr : Type) where
  path : PathData Addr
  prevPath : Option (PathData Addr)
  /-- `Timer::PathValidation`. -/
  pathValidation : Option Instant
  /-- The largest packet number received. -/
  rxPacket : Nat

structure Packet (Addr : Type) where
  now : Instant
  remote : Addr
  number : Nat
  frames : List Frame
  /-- The tokens drawn for the new path and for the one it replaces. -/
  tokens : Nat × Nat
  /-- The larger PTO of the two paths. -/
  pto : Nat

namespace Connection

def onPacketAuthenticated (c : Connection Addr) (number : Nat) : Connection Addr :=
  { c with rxPacket := max c.rxPacket number }

def processFrame (remote : Addr) (c : Connection Addr) : Frame → Connection Addr
  | .pathResponse token =>
    if c.path.challenge = some token ∧ remote = c.path.remote then
      { c with
        pathValidation := none
        path := { c.path with challenge := none, validated := true }
        prevPath := c.prevPath.map fun prev => { prev with challenge := none } }
    else c
  | _ => c

def processFrames (c : Connection Addr) (p : Packet Addr) : Connection Addr :=
  p.frames.foldl (processFrame p.remote) (c.onPacketAuthenticated p.number)

/-- The newest packet comes from another address and does more than probe it. -/
def migrates (c : Connection Addr) (p : Packet Addr) : Bool :=
  p.remote ≠ c.path.remote && !p.frames.all Frame.isProbing && p.number = c.rxPacket

/-- `Connection::migrate`; a new path starts without validation, whether or not it looks
like a rebinding. -/
def migrate (c : Connection Addr) (p : Packet Addr) : Connection Addr :=
  { c with
    path := ⟨p.remote, some p.tokens.1, false⟩
    -- The original path is not given up for one that was not validated.
    prevPath :=
      if c.path.challenge = none then some { c.path with challenge := some p.tokens.2 }
      else c.prevPath
    pathValidation := some (p.now + 3 * p.pto) }

/-- `Connection::handle_packet` and `process_payload`. -/
def handlePacket (c : Connection Addr) (p : Packet Addr) : Connection Addr :=
  let c := c.processFrames p
  if c.migrates p then c.migrate p else c

def expires (c : Connection Addr) (now : Instant) : Bool :=
  c.pathValidation.any (· ≤ now)

def handleTimeout (c : Connection Addr) (now : Instant) : Connection Addr :=
  if c.expires now then
    { c with
      path := { c.prevPath.getD c.path with challenge := none }
      prevPath := none
      pathValidation := none }
  else c

end Connection

inductive Label (Addr : Type)
  | packet (p : Packet Addr)
  | timeout (now : Instant)

/-- The handshake validates the path it takes. -/
def system (handshake : Addr) : System (Connection Addr) (Label Addr) where
  initial c := ∃ rxPacket, c = ⟨⟨handshake, none, true⟩, none, none, rxPacket⟩
  step c
    | .packet p => some (c.handlePacket p)
    | .timeout now => some (c.handleTimeout now)

/-- The addresses that have answered their own challenge, the newest first and that of
the handshake last, and the one whose answer is awaited, with its challenge. -/
structure Trail (Addr : Type) where
  validated : List Addr
  trial : Option (Addr × Nat)

def Trail.respond (remote : Addr) (t : Trail Addr) : Frame → Trail Addr
  | .pathResponse token =>
    if t.trial = some (remote, token) then ⟨remote :: t.validated, none⟩ else t
  | _ => t

def observe (c : Connection Addr) : Label Addr → Trail Addr → Trail Addr
  | .packet p, t =>
    let t := p.frames.foldl (Trail.respond p.remote) t
    if (c.processFrames p).migrates p then { t with trial := some (p.remote, p.tokens.1) } else t
  | .timeout now, t => if c.expires now then { t with trial := none } else t

def history (handshake : Addr) : System (Connection Addr × Trail Addr) (Label Addr) :=
  (system handshake).observed ⟨[handshake], none⟩ observe

/-- The newest validated address is in use, or kept while another is on trial. -/
inductive Follows (c : Connection Addr) : Trail Addr → Prop
  | settled {earlier : List Addr} (hchallenge : c.path.challenge = none)
      (hvalidated : c.path.validated = true) (htimer : c.pathValidation = none) :
      Follows c ⟨c.path.remote :: earlier, none⟩
  | onTrial {earlier : List Addr} {token : Nat} {prev : PathData Addr}
      (hprev : c.prevPath = some prev) (hkept : prev.validated = true)
      (hchallenge : c.path.challenge = some token) (hvalidated : c.path.validated = false) :
      Follows c ⟨prev.remote :: earlier, some (c.path.remote, token)⟩

section Agrees

open Recovery.Connection Function

variable {r : Recovery.Connection} {i : Recovery.Incoming} {c : Connection Addr} {p : Packet Addr}
  {remote : Nat → Addr}

/-- Loss recovery tells its paths apart by their generations; where `remote` says which address
each is for, it has the same paths, and they await the same answers. -/
structure Agrees (remote : Nat → Addr) (r : Recovery.Connection) (c : Connection Addr) : Prop where
  address : remote r.path.generation = c.path.remote
  challenge : r.path.challenge = c.path.challenge
  prevPath : r.prevPath.map (fun prev => (remote prev.generation, prev.challenge)) =
    c.prevPath.map fun prev => (prev.remote, prev.challenge)

theorem Agrees.pathResponse (h : Agrees remote r c) (token : Nat)
    (hremote : i.otherRemote = decide (p.remote ≠ c.path.remote)) :
    ∃ r', r.processFrame i (.pathResponse token) = .ok (r', true) ∧
      Agrees remote r' (c.processFrame p.remote (.pathResponse token)) := by
  have hiff : (r.path.challenge = some token ∧ ¬ i.otherRemote) ↔
      (c.path.challenge = some token ∧ p.remote = c.path.remote) := by
    simp [h.challenge, hremote]
  unfold Recovery.Connection.processFrame Connection.processFrame
  simp only [hiff]
  split_ifs
  · refine ⟨_, rfl, h.address, rfl, ?_⟩
    have hmap := congrArg (Option.map fun prev => (prev.1, (none : Option Nat))) h.prevPath
    rwa [Option.map_map, Option.map_map] at hmap ⊢
  · exact ⟨r, rfl, h⟩

omit [DecidableEq Addr]

theorem Agrees.migrate (h : Agrees remote r c) (htokens : i.tokens = p.tokens)
    (hpath : r.path.generation ≠ (r.migrate i).pathCounter)
    (hprev : ∀ prev ∈ r.prevPath, prev.generation ≠ (r.migrate i).pathCounter) :
    Agrees (update remote (r.migrate i).pathCounter p.remote) (r.migrate i) (c.migrate p) := by
  refine ⟨?_, ?_, ?_⟩
  · have hown : (r.migrate i).path.generation = (r.migrate i).pathCounter := by
      unfold Recovery.Connection.migrate
      split_ifs <;> rfl
    rw [hown, update_self]
    rfl
  · exact congrArg (fun tokens => some tokens.1) htokens
  · change Option.map _ (if r.path.challenge = none then _ else _) =
      Option.map _ (if c.path.challenge = none then _ else _)
    rw [h.challenge]
    split_ifs
    · simp only [Option.map_some, update_of_ne hpath, h.address, htokens]
    · rw [← h.prevPath]
      exact Option.map_congr fun prev hmem => by rw [update_of_ne (hprev prev hmem)]

theorem Agrees.timeout (h : Agrees remote r c) {now : Instant} (hexpires : c.expires now = true) :
    Agrees remote r.pathValidationTimeout (c.handleTimeout now) := by
  rw [Connection.handleTimeout, if_pos hexpires]
  refine ⟨?_, rfl, rfl⟩
  have hprev := h.prevPath
  have haddress := h.address
  unfold pathValidationTimeout
  cases hr : r.prevPath <;> cases hc : c.prevPath <;> simp_all

end Agrees

section Steps

variable {c : Connection Addr} {t : Trail Addr} {remote : Addr}

section

omit [DecidableEq Addr]

theorem Follows.authenticated (h : Follows c t) (number : Nat) :
    Follows (c.onPacketAuthenticated number) t := by
  cases h with
  | settled hchallenge hvalidated htimer => exact .settled hchallenge hvalidated htimer
  | onTrial hprev hkept hchallenge hvalidated => exact .onTrial hprev hkept hchallenge hvalidated

theorem Follows.migrate (h : Follows c t) (p : Packet Addr) :
    Follows (c.migrate p) { t with trial := some (p.remote, p.tokens.1) } := by
  cases h with
  | settled hchallenge hvalidated =>
    exact @Follows.onTrial _ _ _ _ { c.path with challenge := some p.tokens.2 }
      (if_pos hchallenge) hvalidated rfl rfl
  | onTrial hprev hkept hchallenge =>
    have hslot : (c.migrate p).prevPath = c.prevPath := if_neg (by simp [hchallenge])
    exact .onTrial (hslot.trans hprev) hkept rfl rfl

theorem Follows.timeout (h : Follows c t) {now : Instant} (hexpires : c.expires now = true) :
    Follows (c.handleTimeout now) { t with trial := none } := by
  rw [Connection.handleTimeout, if_pos hexpires]
  cases h with
  | settled _ _ htimer => simp [Connection.expires, htimer] at hexpires
  | onTrial hprev hkept =>
    rw [hprev]
    exact .settled rfl hkept rfl

end

theorem processFrame_cases (c : Connection Addr) (remote : Addr) (frame : Frame) :
    c.processFrame remote frame = c ∨ ∃ token, frame = .pathResponse token ∧
      c.path.challenge = some token ∧ remote = c.path.remote := by
  cases frame with
  | pathResponse token =>
    by_cases hown : c.path.challenge = some token ∧ remote = c.path.remote
    · exact .inr ⟨token, rfl, hown⟩
    · exact .inl (if_neg hown)
  | _ => exact .inl rfl

/-- Only the answer from its own address to its own challenge validates a path. -/
theorem response_of_validated {frames : List Frame} (hnot : c.path.validated = false)
    (h : (frames.foldl (Connection.processFrame remote) c).path.validated = true) :
    remote = c.path.remote ∧
      ∃ token, c.path.challenge = some token ∧ .pathResponse token ∈ frames := by
  induction frames with
  | nil => exact absurd h (ne_true_of_eq_false hnot)
  | cons frame _ ih =>
    rw [List.foldl_cons] at h
    obtain hsame | ⟨token, rfl, hchallenge, hremote⟩ := processFrame_cases c remote frame
    · rw [hsame] at h
      obtain ⟨hremote, token, hchallenge, hmem⟩ := ih h
      exact ⟨hremote, token, hchallenge, List.mem_cons_of_mem _ hmem⟩
    · exact ⟨hremote, token, hchallenge, List.mem_cons_self⟩

theorem Follows.frame (h : Follows c t) (remote : Addr) (frame : Frame) :
    Follows (c.processFrame remote frame) (t.respond remote frame) := by
  cases frame with
  | pathResponse token =>
    rw [Connection.processFrame, Trail.respond]
    cases h with
    | settled hchallenge hvalidated htimer =>
      rw [if_neg (by simp [hchallenge]), if_neg (by simp)]
      exact .settled hchallenge hvalidated htimer
    | @onTrial _ expected _ hprev hkept hchallenge hvalidated =>
      by_cases hown : c.path.challenge = some token ∧ remote = c.path.remote
      · obtain ⟨htoken, rfl⟩ := hown
        cases hchallenge.symm.trans htoken
        rw [if_pos ⟨htoken, rfl⟩, if_pos rfl]
        exact .settled rfl rfl rfl
      · have hother : some (c.path.remote, expected) ≠ some (remote, token) := by
          rintro ⟨⟩
          exact hown ⟨hchallenge, rfl⟩
        rw [if_neg hown, if_neg hother]
        exact .onTrial hprev hkept hchallenge hvalidated
  | _ => exact h

theorem Follows.frames (h : Follows c t) (remote : Addr) (frames : List Frame) :
    Follows (frames.foldl (Connection.processFrame remote) c)
      (frames.foldl (Trail.respond remote) t) := by
  induction frames generalizing c t with
  | nil => exact h
  | cons frame _ ih => exact ih (h.frame remote frame)

theorem Follows.step {c' : Connection Addr} {a : Label Addr} (h : Follows c t)
    (hstep : (system remote).step c a = some c') : Follows c' (observe c a t) := by
  cases a with
  | packet p =>
    cases hstep
    have hframes := (h.authenticated p.number).frames p.remote p.frames
    unfold Connection.handlePacket observe
    dsimp only
    split_ifs
    · exact Follows.migrate hframes p
    · exact hframes
  | timeout =>
    cases hstep
    rw [observe]
    split_ifs with hexpires
    · exact h.timeout hexpires
    · rw [Connection.handleTimeout, if_neg hexpires]
      exact h

end Steps

theorem follows_of_reachable {handshake : Addr} {s : Connection Addr × Trail Addr}
    (h : (history handshake).Reachable s) : Follows s.1 s.2 := by
  induction h with
  | initial h =>
    obtain ⟨⟨_, hc⟩, ht⟩ := h
    rw [hc, ht]
    exact .settled rfl rfl rfl
  | step _ _ hstep ih =>
    obtain ⟨hstep, heq⟩ := System.observed_step_eq_some hstep
    rw [heq]
    exact ih.step hstep

/-- When validation fails, the address in use is the newest one that was validated; and
a path is validated by the answer from its own address to its own challenge alone. -/
theorem falls_back_to_validated {handshake : Addr} {c : Connection Addr} {t : Trail Addr}
    (h : (history handshake).Reachable (c, t)) :
    (∀ now, c.expires now = true → t.validated.head? = some (c.handleTimeout now).path.remote) ∧
    (c.path.validated = true → t.validated.head? = some c.path.remote) ∧
    (c.path.validated = false →
      ∃ token, c.path.challenge = some token ∧ t.trial = some (c.path.remote, token)) ∧
    ∀ p, c.path.validated = false → (c.handlePacket p).path.validated = true →
      p.remote = c.path.remote ∧
        ∃ token, c.path.challenge = some token ∧ .pathResponse token ∈ p.frames := by
  have hfollows : Follows c t := follows_of_reachable h
  refine ⟨fun now hexpires => ?_, fun hvalidated => ?_, fun hnot => ?_, fun p hnot hthen => ?_⟩
  · obtain ⟨_, _⟩ := t
    cases hfollows.timeout hexpires with
    | settled => rfl
  · cases hfollows with
    | settled => rfl
    | onTrial _ _ _ hnot => cases hnot.symm.trans hvalidated
  · cases hfollows with
    | settled _ hvalidated => cases hnot.symm.trans hvalidated
    | onTrial _ _ hchallenge => exact ⟨_, hchallenge, rfl⟩
  · unfold Connection.handlePacket at hthen
    dsimp only at hthen
    split_ifs at hthen
    · cases hthen
    · exact response_of_validated (c := c.onPacketAuthenticated p.number) hnot hthen

def moves (number remote token : Nat) : Label Nat :=
  .packet ⟨0, remote, number, [.other false], (token, 0), 10⟩

def answers (number remote token : Nat) : Label Nat :=
  .packet ⟨0, remote, number, [.pathResponse token], (0, 0), 10⟩

/-- The client moves from address 1 to 2 and answers there, then to 3 and to 4 and does not
answer. -/
theorem two_moves_fall_back : ∃ s, (history 1).Reachable s ∧ s.1.path.remote = 4 ∧
    (s.1.handleTimeout 30).path.remote = 2 ∧
    s.2.validated.head? = some (s.1.handleTimeout 30).path.remote := by
  have hinitial : (history 1).Reachable (⟨⟨1, none, true⟩, none, none, 0⟩, ⟨[1], none⟩) :=
    .initial ⟨⟨0, rfl⟩, rfl⟩
  obtain ⟨s, hs, hexpires, hremote, hback⟩ := hinitial.exists_of_run
    [moves 1 2 7, answers 2 2 7, moves 3 3 8, moves 4 4 9, answers 5 4 8]
    (P := fun s => s.1.expires 30 = true ∧ s.1.path.remote = 4 ∧
      (s.1.handleTimeout 30).path.remote = 2) ⟨_, rfl, rfl, rfl, rfl⟩
  exact ⟨s, hs, hremote, hback, (falls_back_to_validated hs).1 30 hexpires⟩

end Quac.Migration
