import Quac.Lib.Membership
import Quac.Lib.WallClock

/-!
The log of used validation tokens of `bloom_token_log.rs`: two filters over two
consecutive periods of expiry times, each an exact set until it grows too large
and a bloom filter from then on.
-/

namespace Quac.TokenLog

open Lib.Membership Lib.WallClock

inductive TokenReuseError
  | tokenReuseError
deriving DecidableEq

structure FilterConfig where
  filterMaxBytes : Nat
  kNum : Nat
deriving DecidableEq

/-- What the code takes from its two containers: the hash set's capacity and
iteration order, which depend on more than its elements, and the bloom filter,
which `withNumBits` builds from a number of bits and of hashes. -/
structure Containers (β : Type) where
  capacity : List Nat → Nat
  iter : List Nat → List Nat
  mem_iter {hset : List Nat} {x : Nat} : x ∈ hset → x ∈ iter hset
  bloom : ApproximateSet Nat β
  withNumBits : Nat → Nat → β

inductive Filter (β : Type)
  | set (hset : List Nat)
  | bloom (filter : β)
deriving DecidableEq

def Filter.default {β : Type} : Filter β :=
  .set []

section

variable {β : Type} (lib : Containers β)

/-- `usize` products wrap. -/
def Filter.checkAndInsert (filter : Filter β) (fingerprint : Nat) (config : FilterConfig) :
    Except TokenReuseError Unit × Filter β :=
  match filter with
  | .set hset =>
    if fingerprint ∈ hset then (.error .tokenReuseError, filter)
    else
      let hset := fingerprint :: hset
      if lib.capacity hset * 8 % 2 ^ 64 ≤ config.filterMaxBytes then (.ok (), .set hset)
      else
        let bits := max (config.filterMaxBytes * 8 % 2 ^ 64) 1
        let converted := lib.bloom.insertAll (lib.withNumBits bits config.kNum) (lib.iter hset)
        (.ok (), .bloom converted)
  | .bloom old =>
    let (new, found) := lib.bloom.insert old fingerprint
    if found then (.error .tokenReuseError, .bloom new) else (.ok (), .bloom new)

structure State (β : Type) where
  config : FilterConfig
  period1Start : SystemTime
  filter1 : Filter β
  filter2 : Filter β

/-- The mutex around the state: a panic under its guard poisons it, and every
later `lock().unwrap()` panics. -/
structure BloomTokenLog (β : Type) where
  state : State β
  poisoned : Bool

def BloomTokenLog.new (maxBytes kNum : Nat) : BloomTokenLog β :=
  { state :=
      { config := { filterMaxBytes := maxBytes / 2, kNum }
        period1Start := unixEpoch
        filter1 := .default
        filter2 := .default }
    poisoned := false }

/-- The state with its filters turned over for a token that expires
`periodsForward` periods after the start of the first, and whether the token
belongs to the first filter.  `none` when the new start is out of range. -/
def State.turnOver (state : State β) (expiresAt : SystemTime) (lifetime : Duration) :
    Nat → Option (State β × Bool)
  | 0 => some (state, true)
  | 1 => some (state, false)
  | 2 => do
    let start ← state.period1Start.checkedAdd lifetime
    some ({ state with filter1 := state.filter2, filter2 := .default, period1Start := start },
      false)
  | _ =>
    some ({ state with filter1 := .default, filter2 := .default, period1Start := expiresAt }, true)

/-- The check against the first filter, or against the second. -/
def State.insertInto (state : State β) (fingerprint : Nat) :
    Bool → Except TokenReuseError Unit × State β
  | true =>
    let (result, filter) := state.filter1.checkAndInsert lib fingerprint state.config
    (result, { state with filter1 := filter })
  | false =>
    let (result, filter) := state.filter2.checkAndInsert lib fingerprint state.config
    (result, { state with filter2 := filter })

/-- The outcome is `none` when the call panics. -/
def BloomTokenLog.checkAndInsert (log : BloomTokenLog β) (nonce : Nat) (issued : SystemTime)
    (lifetime : Duration) : Option (Except TokenReuseError Unit) × BloomTokenLog β :=
  if lifetime.nanos = 0 then (some (.error .tokenReuseError), log)
  else if log.poisoned then (none, log)
  else
    match issued.checkedAdd lifetime with
    | none => (none, { log with poisoned := true })
    | some expiresAt =>
      match expiresAt.durationSince log.state.period1Start with
      | none => (some (.error .tokenReuseError), log)
      | some duration =>
        match log.state.turnOver expiresAt lifetime (duration.nanos / lifetime.nanos) with
        | none => (none, { log with poisoned := true })
        | some (state, inFirst) =>
          let (result, state) := state.insertInto lib (nonce % 2 ^ 64) inFirst
          (some result, { log with state })

structure Call where
  nonce : Nat
  issued : SystemTime
deriving DecidableEq

/-- The calls of a sequence that return `Ok`. -/
def BloomTokenLog.accepted (lifetime : Duration) : BloomTokenLog β → List Call → List Call
  | _, [] => []
  | log, call :: calls =>
    match log.checkAndInsert lib call.nonce call.issued lifetime with
    | (some (.ok ()), log) => call :: accepted lifetime log calls
    | (_, log) => accepted lifetime log calls

def Filter.Contains : Filter β → Nat → Prop
  | .set hset, x => x ∈ hset
  | .bloom filter, x => lib.bloom.contains filter x = true

variable {lib}

theorem Filter.Contains.checkAndInsert {filter : Filter β} {x : Nat} (h : filter.Contains lib x)
    (fingerprint : Nat) (config : FilterConfig) :
    (filter.checkAndInsert lib fingerprint config).2.Contains lib x := by
  cases filter with
  | set =>
    simp only [Filter.checkAndInsert]
    split_ifs with hmem hroom
    · exact h
    · exact List.mem_cons_of_mem _ h
    · exact lib.bloom.contains_insertAll _ (lib.mem_iter (List.mem_cons_of_mem _ h))
  | bloom =>
    simp only [Filter.checkAndInsert]
    split_ifs <;> exact lib.bloom.contains_insert _ _ _ h

theorem Filter.checkAndInsert_ok {filter filter' : Filter β} {fingerprint : Nat}
    {config : FilterConfig}
    (h : filter.checkAndInsert lib fingerprint config = (.ok (), filter')) :
    ¬ filter.Contains lib fingerprint ∧ filter'.Contains lib fingerprint := by
  cases filter with
  | set =>
    simp only [Filter.checkAndInsert] at h
    split_ifs at h with hmem hroom
    · simp at h
    · cases h
      exact ⟨hmem, List.mem_cons_self⟩
    · cases h
      exact ⟨hmem, lib.bloom.contains_insertAll _ (lib.mem_iter List.mem_cons_self)⟩
  | bloom =>
    simp only [Filter.checkAndInsert] at h
    split_ifs at h with hfound
    · simp at h
    cases h
    rw [lib.bloom.insert_snd] at hfound
    exact ⟨hfound, lib.bloom.contains_insert_self _ _⟩

variable (lib) (lifetime : Duration)

/-- The start of the period that the first filter covers, or the second. -/
def State.periodStart (state : State β) : Bool → Int
  | true => state.period1Start.nanos
  | false => state.period1Start.nanos + lifetime.nanos

def State.filter (state : State β) : Bool → Filter β
  | true => state.filter1
  | false => state.filter2

def State.InPeriod (state : State β) (inFirst : Bool) (expires : Int) : Prop :=
  state.periodStart lifetime inFirst ≤ expires ∧
    expires < state.periodStart lifetime inFirst + lifetime.nanos

/-- The state turns the call away: its token does not expire past the two
periods, and the filter of a period it expires in finds it. -/
structure State.Covers (state : State β) (call : Call) : Prop where
  early : call.issued.nanos + lifetime.nanos < state.period1Start.nanos + 2 * lifetime.nanos
  found (inFirst : Bool) : state.InPeriod lifetime inFirst (call.issued.nanos + lifetime.nanos) →
      (state.filter inFirst).Contains lib (call.nonce % 2 ^ 64)

variable {lib} {lifetime}

open State

theorem State.insertInto_fst (state : State β) (fingerprint : Nat) (inFirst : Bool) :
    (state.insertInto lib fingerprint inFirst).1 =
      ((state.filter inFirst).checkAndInsert lib fingerprint state.config).1 := by
  cases inFirst <;> rfl

theorem State.insertInto_filter (state : State β) (fingerprint : Nat) (inFirst other : Bool) :
    (state.insertInto lib fingerprint inFirst).2.filter other = if other = inFirst then
        ((state.filter inFirst).checkAndInsert lib fingerprint state.config).2
      else state.filter other := by
  cases inFirst <;> cases other <;> rfl

theorem State.insertInto_period1Start (state : State β) (fingerprint : Nat) (inFirst : Bool) :
    (state.insertInto lib fingerprint inFirst).2.period1Start = state.period1Start := by
  cases inFirst <;> rfl

theorem State.insertInto_periodStart (state : State β) (fingerprint : Nat) (inFirst other : Bool) :
    (state.insertInto lib fingerprint inFirst).2.periodStart lifetime other =
      state.periodStart lifetime other := by
  cases inFirst <;> cases other <;> rfl

variable {state : State β} {call : Call}

theorem State.Covers.insertInto
    (h : state.Covers lib lifetime call) (fingerprint : Nat) (inFirst : Bool) :
    (state.insertInto lib fingerprint inFirst).2.Covers lib lifetime call where
  early := by
    rw [insertInto_period1Start]
    exact h.early
  found other hperiod := by
    rw [State.InPeriod, insertInto_periodStart] at hperiod
    rw [insertInto_filter]
    split_ifs with hother
    · cases hother
      exact (h.found _ hperiod).checkAndInsert fingerprint state.config
    · exact h.found _ hperiod

theorem State.Covers.turnOver {state' : State β} {expiresAt : SystemTime}
    {periods : Nat} {inFirst : Bool} (h : state.Covers lib lifetime call)
    (hpast : state.period1Start.nanos + periods * lifetime.nanos ≤ expiresAt.nanos)
    (hturn : state.turnOver expiresAt lifetime periods = some (state', inFirst)) :
    state'.Covers lib lifetime call := by
  have hearly := h.early
  match periods with
  | 0 | 1 =>
    cases hturn
    exact h
  | 2 =>
    obtain ⟨_, hstart, hstate⟩ := Option.bind_eq_some_iff.mp hturn
    cases hstate
    have hnanos := SystemTime.checkedAdd_eq_some hstart
    refine ⟨?_, ?_⟩
    · dsimp only
      omega
    -- the second period is the first now, and no covered token expires past it
    · rintro (_ | _) ⟨hge, hlt⟩ <;> simp only [periodStart] at hge hlt
      · omega
      · refine h.found false ⟨?_, ?_⟩ <;> simp only [periodStart] <;> omega
  | n + 3 =>
    cases hturn
    have hlate : 2 * (lifetime.nanos : Int) ≤ (n + 3 : Nat) * lifetime.nanos :=
      Int.mul_le_mul_of_nonneg_right (by omega) (by omega)
    refine ⟨?_, ?_⟩
    · dsimp only
      omega
    · rintro (_ | _) ⟨hge, -⟩ <;> simp only [periodStart] at hge <;> omega

theorem State.turnOver_inPeriod {state' : State β} {expiresAt : SystemTime}
    {duration : Duration} {inFirst : Bool} (hlifetime : 0 < lifetime.nanos)
    (hduration : expiresAt.nanos = state.period1Start.nanos + duration.nanos)
    (hturn : state.turnOver expiresAt lifetime (duration.nanos / lifetime.nanos) =
      some (state', inFirst)) :
    state'.InPeriod lifetime inFirst expiresAt.nanos := by
  have hdiv := Nat.div_add_mod duration.nanos lifetime.nanos
  have hmod := Nat.mod_lt duration.nanos hlifetime
  generalize duration.nanos / lifetime.nanos = periods at hturn hdiv
  match periods with
  | 2 =>
    obtain ⟨_, hstart, hstate⟩ := Option.bind_eq_some_iff.mp hturn
    cases hstate
    have hnanos := SystemTime.checkedAdd_eq_some hstart
    constructor <;> simp only [periodStart] <;> omega
  | 0 | 1 | n + 3 =>
    cases hturn
    constructor <;> simp only [periodStart] <;> omega

variable {outcome : Option (Except TokenReuseError Unit)} {log' log : BloomTokenLog β}

/-- What a call can do: it is turned away at once, or it turns the filters over
and asks the one of the period its token expires in. -/
theorem BloomTokenLog.checkAndInsert_cases {nonce : Nat} {issued : SystemTime}
    (h : log.checkAndInsert lib nonce issued lifetime = (outcome, log')) :
    (outcome ≠ some (.ok ()) ∧ log'.state = log.state) ∨
    ∃ (state : State β) (inFirst : Bool),
      (∀ call, log.state.Covers lib lifetime call → state.Covers lib lifetime call) ∧
      state.InPeriod lifetime inFirst (issued.nanos + lifetime.nanos) ∧
      outcome = some (state.insertInto lib (nonce % 2 ^ 64) inFirst).1 ∧
      log'.state = (state.insertInto lib (nonce % 2 ^ 64) inFirst).2 := by
  unfold checkAndInsert at h
  split_ifs at h with hzero hpoisoned
  iterate 2
    cases h
    exact .inl ⟨by simp, rfl⟩
  split at h
  · cases h
    exact .inl ⟨by simp, rfl⟩
  rename_i expiresAt hexpires
  split at h
  · cases h
    exact .inl ⟨by simp, rfl⟩
  rename_i duration hduration
  split at h
  · cases h
    exact .inl ⟨by simp, rfl⟩
  rename_i state inFirst hturn
  cases h
  have hexpires := SystemTime.checkedAdd_eq_some hexpires
  have hduration := SystemTime.durationSince_eq_some hduration
  have hpast : log.state.period1Start.nanos +
      (duration.nanos / lifetime.nanos : Nat) * lifetime.nanos ≤ expiresAt.nanos := by
    have := Nat.div_mul_le_self duration.nanos lifetime.nanos
    omega
  refine .inr ⟨state, inFirst, fun call hcall => hcall.turnOver hpast hturn, ?_, rfl, rfl⟩
  rw [← hexpires]
  exact turnOver_inPeriod (Nat.pos_of_ne_zero hzero) hduration hturn

theorem BloomTokenLog.covers_checkAndInsert {nonce : Nat} {issued : SystemTime}
    (h : log.checkAndInsert lib nonce issued lifetime = (outcome, log'))
    (hcall : log.state.Covers lib lifetime call) : log'.state.Covers lib lifetime call := by
  obtain ⟨-, hsame⟩ | ⟨_, _, hturned, -, -, hstate⟩ := checkAndInsert_cases h
  · rw [hsame]
    exact hcall
  · rw [hstate]
    exact (hturned call hcall).insertInto _ _

/-- An accepted call was not covered before and is afterwards. -/
theorem BloomTokenLog.checkAndInsert_ok
    (h : log.checkAndInsert lib call.nonce call.issued lifetime = (some (.ok ()), log')) :
    ¬ log.state.Covers lib lifetime call ∧ log'.state.Covers lib lifetime call := by
  obtain ⟨hrejected, -⟩ | ⟨_, inFirst, hturned, hperiod, hout, hstate⟩ :=
    checkAndInsert_cases h
  · exact absurd rfl hrejected
  rw [insertInto_fst] at hout
  obtain ⟨hbefore, hafter⟩ :=
    Filter.checkAndInsert_ok (Prod.ext (Option.some.inj hout).symm rfl)
  refine ⟨fun hcall => hbefore ((hturned call hcall).found inFirst hperiod), ?_⟩
  rw [hstate]
  constructor
  · rw [insertInto_period1Start]
    have hlt := hperiod.2
    cases inFirst <;> simp only [periodStart] at hlt <;> omega
  · intro other hother
    rw [State.InPeriod, insertInto_periodStart] at hother
    have hsame : other = inFirst := by
      -- the two periods do not overlap
      obtain ⟨hge, hlt⟩ := hperiod
      obtain ⟨hge', hlt'⟩ := hother
      cases inFirst <;> cases other <;> simp only [periodStart] at hge hlt hge' hlt' <;>
        first | rfl | omega
    cases hsame
    rw [insertInto_filter, if_pos rfl]
    exact hafter

/-- What a sequence of calls accepts from a log was not covered by it, and holds
no call twice. -/
theorem BloomTokenLog.accepted_fresh (log : BloomTokenLog β) (calls : List Call) :
    (log.accepted lib lifetime calls).Nodup ∧
      ∀ call ∈ log.accepted lib lifetime calls, ¬ log.state.Covers lib lifetime call := by
  induction calls generalizing log with
  | nil => exact ⟨List.nodup_nil, by simp [accepted]⟩
  | cons call calls ih =>
    rcases hcall : log.checkAndInsert lib call.nonce call.issued lifetime with ⟨outcome, log'⟩
    obtain ⟨hnodup, hfresh⟩ := ih log'
    -- what is not covered after the call was not covered before it
    have hearlier : ∀ c ∈ log'.accepted lib lifetime calls, ¬ log.state.Covers lib lifetime c :=
      fun c hc hcovers => hfresh c hc (covers_checkAndInsert hcall hcovers)
    match outcome with
    | some (.ok ()) =>
      obtain ⟨hbefore, hafter⟩ := checkAndInsert_ok hcall
      have haccepted : log.accepted lib lifetime (call :: calls) =
          call :: log'.accepted lib lifetime calls := by
        simp only [accepted, hcall]
      rw [haccepted]
      refine ⟨List.nodup_cons.mpr ⟨fun hmem => hfresh call hmem hafter, hnodup⟩, ?_⟩
      intro c hc
      rcases List.mem_cons.mp hc with rfl | hc
      · exact hbefore
      · exact hearlier c hc
    | some (.error _) | none =>
      have haccepted : log.accepted lib lifetime (call :: calls) =
          log'.accepted lib lifetime calls := by
        simp only [accepted, hcall]
      rw [haccepted]
      exact ⟨hnodup, hearlier⟩

/-- No token is accepted twice. -/
theorem accepted_nodup (lib : Containers β) (maxBytes kNum : Nat) (lifetime : Duration)
    (calls : List Call) :
    ((BloomTokenLog.new maxBytes kNum).accepted lib lifetime calls).Nodup :=
  (BloomTokenLog.accepted_fresh _ calls).1

end

/-- Containers without false positives, with a bloom filter from the second
element on. -/
def exactContainers : Containers (List Nat) where
  capacity hset := hset.length
  iter hset := hset
  mem_iter h := h
  bloom :=
    { contains := fun b x => decide (x ∈ b)
      insert := fun b x => (x :: b, decide (x ∈ b))
      insert_snd := fun _ _ => rfl
      contains_insert_self := fun _ _ => decide_eq_true List.mem_cons_self
      contains_insert := fun _ _ _ h =>
        decide_eq_true (List.mem_cons_of_mem _ (of_decide_eq_true h)) }
  withNumBits _ _ := []

-- the replays come after the switch to a bloom filter and after a turnover
example : let at' (n : Nat) (h : n < 100) : SystemTime := ⟨n, by decide +revert, by decide +revert⟩
    let first : Call := ⟨7, at' 5 (by decide)⟩
    let second : Call := ⟨8, at' 6 (by decide)⟩
    let third : Call := ⟨7, at' 25 (by decide)⟩
    (BloomTokenLog.new 16 1).accepted exactContainers ⟨10, by decide⟩
      [first, second, first, third, second, third] = [first, second, third] := by
  decide

end Quac.TokenLog
