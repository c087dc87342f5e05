import Irori.Proofs.Recalling
import Irori.Lib.Index
import Irori.Home.Sample

/-!
# Calls on one entity take turns

At most one call of an entity is between its being worked out and its end, and what each is worked
out from: the value asked for by the last call that was carried out, as far as the core can tell.
-/

namespace Irori.Core

variable {κ σ ς : Type}

/-! ### What entities were told -/

structure Given where
  entity : EntityId
  call : Nat
  asksFor : Option Typed
  deriving DecidableEq

/-- What was given and not refused, for entities that weren't heard of since, and the calls on their
way whose entities weren't heard of since they were recorded. -/
structure Past where
  given : List Given
  fresh : List (EntityId × Nat)

def Past.start : Past := ⟨[], []⟩

def Past.latest (past : Past) (entity : EntityId) : Option Typed :=
  ((past.given.filter fun given => given.entity == entity).getLast?).bind Given.asksFor

def Past.hear (past : Past) (heard : EntityId → Bool) : Past :=
  ⟨past.given.filter fun given => !heard given.entity,
    past.fresh.filter fun fresh => !heard fresh.1⟩

def Past.refuse (past : Past) (k : Nat) : Past :=
  { past with given := past.given.filter fun given => given.call != k }

section

variable [DecidableEq κ] [DecidableEq σ] (kinds : Kinds κ σ) (services : Services κ σ ς)

/-- The past once a step has happened. -/
def Past.after (s : Calling κ σ ς) (past : Past) : CallStep κ σ → Past
  | .told op =>
    match op.sender, s.home.perform kinds op with
    | some _, some (result, next) => past.hear (hears s.home op result next)
    | _, _ => past
  | .dispatches k isRunning _ =>
    match s.calls[k]? with
    | some ⟨entity, _, _, _, .resolved _⟩ =>
      if isRunning then { past with fresh := past.fresh ++ [(entity, k)] } else past
    | _ => past
  | .delivers k _ =>
    match s.calls[k]? with
    | some ⟨entity, _, _, _, .sending resolved⟩ =>
      { past with given := past.given ++ [⟨entity, k, services.asksFor resolved.service⟩] }
    | _ => past
  | .answered k answer =>
    match s.calls[k]?, answer.result with
    | some ⟨_, _, _, _, .delivered _⟩, some (.error _) => past.refuse k
    | _, _ => past
  | _ => past

/-- At most one call of an entity has its turn, and each is worked out from the value asked for by
the last call that was delivered and not refused, where the entity wasn't heard of since, or else
from the value it last reported. -/
structure TakesTurns (s : Calling κ σ ς) (past : Past) : Prop where
  alone : ∀ (j k : Nat) (first second : Call ς), s.calls[j]? = some first →
    s.calls[k]? = some second → first.entity = second.entity → first.phase.hasTurn = true →
      second.phase.hasTurn = true → j = k
  told : ∀ (k : Nat) (call : Call ς), s.calls[k]? = some call → call.phase = .turn →
    s.home.resolve services call.entity call.command =
      s.home.resolveFrom services
        ((past.latest call.entity).or (s.home.reported services call.entity)) call.entity
          call.command

def AllTakeTurns (s : Calling κ σ ς) (past : Past) : List (CallStep κ σ) → Prop
  | [] => TakesTurns services s past
  | step :: steps => TakesTurns services s past ∧
      AllTakeTurns (s.after kinds services step) (past.after kinds services s step) steps

/-- A call that isn't delivered, or is refused, comes when the entity was told nothing by an earlier
one, and one that is delivered when its entity wasn't heard of since it was recorded. -/
def HeedsTurn (s : Calling κ σ ς) (past : Past) : CallStep κ σ → Bool
  | .checks k =>
    match s.calls[k]? with
    | some ⟨entity, _, _, _, .recorded resolved⟩ =>
      s.home.stillDispatchable services entity resolved || (past.latest entity).isNone
    | _ => true
  | .fails k _ =>
    match s.calls[k]? with
    | some ⟨entity, _, _, _, .sending _⟩ => (past.latest entity).isNone
    | _ => true
  | .delivers k _ =>
    match s.calls[k]? with
    | some ⟨entity, _, _, _, .sending resolved⟩ =>
      (services.asksFor resolved.service).isNone || past.fresh.contains (entity, k)
    | _ => true
  | .answered k answer =>
    match s.calls[k]?, answer.result with
    | some ⟨entity, _, _, _, .delivered _⟩, some (.error _) => ((past.refuse k).latest entity).isNone
    | _, _ => true
  | _ => true

def AllHeedTurns (s : Calling κ σ ς) (past : Past) : List (CallStep κ σ) → Bool
  | [] => true
  | step :: steps => HeedsTurn services s past step &&
      AllHeedTurns (s.after kinds services step) (past.after kinds services s step) steps

end

/-! ### Whose turn it is -/

/-- The call a phase is on its way with: recorded, and not delivered. -/
def CallPhase.sent : CallPhase ς → Option (Resolved ς)
  | .recorded call => some call
  | .sending call => some call
  | _ => none

lemma CallPhase.hasTurn_of_sent {phase : CallPhase ς} {call : Resolved ς} (h : phase.sent = some call) :
    phase.hasTurn = true := by
  cases phase with
  | recorded call => rfl
  | sending call => rfl
  | _ => cases h

def CallPhase.isTurn : CallPhase ς → Bool
  | .turn => true
  | _ => false

lemma CallPhase.eq_turn {phase : CallPhase ς} (h : phase.isTurn = true) : phase = .turn := by
  cases phase with
  | turn => rfl
  | _ => cases h

lemma CallPhase.unreleased_of_turn {phase : CallPhase ς} (h : phase.hasTurn = true) :
    phase.isReleased = false := by
  cases phase with
  | released result => cases h
  | _ => rfl

/-- Every call that hasn't seen to its lock has the lock of its entity, and one call at most has the
turn of a lock. -/
structure Queued (s : Calling κ σ ς) : Prop where
  calls : ∀ (k : Nat) (call : Call ς), s.calls[k]? = some call → k < s.nextCall
  busy : ∀ (k : Nat) (call : Call ς), s.calls[k]? = some call → call.phase.isReleased = false →
    s.busy[call.entity]? = some call.lock
  one : ∀ (j k : Nat) (first second : Call ς), s.calls[j]? = some first →
    s.calls[k]? = some second → first.lock = second.lock → first.phase.hasTurn = true →
      second.phase.hasTurn = true → j = k

variable {s : Calling κ σ ς} {past : Past}

lemma Queued.alone (h : Queued s) {j k : Nat} {first second : Call ς} (hj : s.calls[j]? = some first)
    (hk : s.calls[k]? = some second) (hentity : first.entity = second.entity)
    (hfirst : first.phase.hasTurn = true) (hsecond : second.phase.hasTurn = true) : j = k := by
  have hlock := h.busy j first hj (CallPhase.unreleased_of_turn hfirst)
  rw [hentity, h.busy k second hk (CallPhase.unreleased_of_turn hsecond)] at hlock
  exact h.one j k first second hj hk (Option.some.inj hlock).symm hfirst hsecond

lemma Queued.moves (h : Queued s) {k : Nat} {call : Call ς} (hcall : s.calls[k]? = some call)
    {phase : CallPhase ς} (hreleased : phase.isReleased = true ∨ call.phase.isReleased = false)
    (hturn : phase.hasTurn = true → call.phase.hasTurn = true ∨
      ∀ (j : Nat) (other : Call ς), s.calls[j]? = some other → other.lock = call.lock →
        other.phase.hasTurn = false) :
    Queued (s.withPhase k call phase) := by
  refine ⟨fun j other hother => ?_, fun j other hother hunreleased => ?_,
    fun i j first second hfirst hsecond hlock hturnFirst hturnSecond => ?_⟩
  · rcases get_withPhase hother with ⟨rfl, _⟩ | ⟨_, hold⟩
    · exact h.calls j call hcall
    · exact h.calls j other hold
  · rcases get_withPhase hother with ⟨rfl, rfl⟩ | ⟨_, hold⟩
    · rcases hreleased with hgone | hnot
      · rw [show phase.isReleased = false from hunreleased] at hgone
        cases hgone
      · exact h.busy j call hcall hnot
    · exact h.busy j other hold hunreleased
  · have hother : ∀ {j : Nat} {other : Call ς}, j ≠ k → s.calls[j]? = some other →
        phase.hasTurn = true → other.lock = call.lock → other.phase.hasTurn = true → False := by
      intro j other hne hj hphase hsame hotherTurn
      rcases hturn hphase with hmine | hnobody
      · exact hne (h.one j k other call hj hcall hsame hotherTurn hmine)
      · rw [hnobody j other hj hsame] at hotherTurn
        cases hotherTurn
    rcases get_withPhase hfirst with ⟨rfl, rfl⟩ | ⟨hne, hold⟩
    · rcases get_withPhase hsecond with ⟨rfl, rfl⟩ | ⟨hne, hold⟩
      · rfl
      · exact (hother hne hold hturnFirst hlock.symm hturnSecond).elim
    · rcases get_withPhase hsecond with ⟨rfl, rfl⟩ | ⟨_, hold'⟩
      · exact (hother hne hold hturnSecond hlock hturnFirst).elim
      · exact h.one i j first second hold hold' hlock hturnFirst hturnSecond

lemma Queued.congr {home : Home κ σ} (h : Queued s) : Queued ({ s with home } : Calling κ σ ς) :=
  ⟨h.calls, h.busy, h.one⟩

lemma Queued.begin (h : Queued s) (entity : EntityId) (command : Command) (context : Context) :
    Queued (s.begin entity command context) := by
  refine ⟨fun j other hother => ?_, fun j other hother hunreleased => ?_,
    fun i j first second hfirst hsecond hlock hturnFirst hturnSecond => ?_⟩
  · rcases get_begin hother with ⟨rfl, _⟩ | hold
    · exact Nat.lt_succ_self _
    · exact Nat.lt_succ_of_lt (h.calls j other hold)
  · show (s.busy.insert entity (s.lockFor entity))[other.entity]? = some other.lock
    rw [Map.get_insert]
    rcases get_begin hother with ⟨_, rfl⟩ | hold
    · exact if_pos rfl
    · have hlock := h.busy j other hold hunreleased
      split
      · next hsame =>
        unfold Calling.lockFor
        rw [hsame, hlock]
        rfl
      · exact hlock
  · rcases get_begin hfirst with ⟨_, rfl⟩ | hold
    · cases hturnFirst
    · rcases get_begin hsecond with ⟨_, rfl⟩ | hold'
      · cases hturnSecond
      · exact h.one i j first second hold hold' hlock hturnFirst hturnSecond

lemma one_le_filter {m : Map Nat (Call ς)} {p : Call ς → Bool} {k : Nat} {call : Call ς}
    (hk : m[k]? = some call) (hp : p call = true) : 1 ≤ ((Map.vals m).filter p).length := by
  have hmem : call ∈ (Map.vals m).filter p :=
    List.mem_filter.mpr ⟨Map.mem_vals.mpr ⟨k, hk⟩, hp⟩
  exact List.length_pos_of_mem hmem

lemma two_le_filter {m : Map Nat (Call ς)} {p : Call ς → Bool} {j k : Nat} {first second : Call ς}
    (hj : m[j]? = some first) (hk : m[k]? = some second) (hne : j ≠ k) (hfirst : p first = true)
    (hsecond : p second = true) : 2 ≤ ((Map.vals m).filter p).length := by
  have hperm := (Map.toList_erase_perm m k second hk).map Prod.snd
  have hcount := (hperm.filter p).length_eq
  have hleft : (m.erase k)[j]? = some first := by
    rw [Map.get_erase, if_neg hne.symm]
    exact hj
  rw [List.map_cons, List.filter_cons_of_pos hsecond, List.length_cons] at hcount
  have hrest : 1 ≤ ((Map.vals (m.erase k)).filter p).length := one_le_filter hleft hfirst
  unfold Map.vals at hrest ⊢
  omega

lemma Queued.release (h : Queued s) {k : Nat} {call : Call ς} (hcall : s.calls[k]? = some call)
    {result : CallResult} (hphase : call.phase = .over result) :
    Queued (({ s with busy := s.release call } : Calling κ σ ς).withPhase k call
      (.released result)) := by
  have hmine : s.busy[call.entity]? = some call.lock := h.busy k call hcall (by rw [hphase]; rfl)
  have hmoved : Queued (s.withPhase k call (.released result)) :=
    h.moves hcall (.inl rfl) fun hturn => nomatch hturn
  refine ⟨hmoved.calls, fun j other hother hunreleased => ?_, hmoved.one⟩
  show (s.release call)[other.entity]? = some other.lock
  rcases get_withPhase hother with ⟨_, rfl⟩ | ⟨hne, hold⟩
  · cases hunreleased
  · have hlock := h.busy j other hold hunreleased
    unfold Calling.release
    rw [hmine]
    dsimp only
    split
    · next hshares =>
      rw [Map.get_erase, if_neg, hlock]
      intro hsame
      rw [← hsame, hmine] at hlock
      have htwo : 2 ≤ ((Map.vals s.calls).filter fun other => other.lock == call.lock).length :=
        two_le_filter hold hcall hne (beq_iff_eq.mpr (Option.some.inj hlock).symm)
          (beq_iff_eq.mpr rfl)
      have hless : ((Map.vals s.calls).filter fun other => other.lock == call.lock).length + 1 ≤ 2 :=
        hshares
      omega
    · exact hlock

lemma Queued.drop (h : Queued s) (k : Nat) :
    Queued ({ s with calls := s.calls.erase k } : Calling κ σ ς) :=
  ⟨fun j other hother => h.calls j other (Map.get_erase_some hother).2,
    fun j other hother => h.busy j other (Map.get_erase_some hother).2,
    fun i j first second hfirst hsecond => h.one i j first second (Map.get_erase_some hfirst).2
      (Map.get_erase_some hsecond).2⟩

lemma nobody_of_not_locked {lock : Nat} (h : ¬ s.isLocked lock = true) (j : Nat) (other : Call ς)
    (hother : s.calls[j]? = some other) (hlock : other.lock = lock) :
    other.phase.hasTurn = false := by
  by_contra hturn
  refine h (List.any_eq_true.mpr ⟨other, Map.mem_vals.mpr ⟨j, hother⟩, ?_⟩)
  rw [Bool.and_eq_true, beq_iff_eq]
  exact ⟨hlock, Bool.not_eq_false _ ▸ hturn⟩

/-! ### What an entity was told -/

lemma latest_hear (past : Past) (heard : EntityId → Bool) (entity : EntityId) :
    (past.hear heard).latest entity = if heard entity then none else past.latest entity := by
  unfold Past.latest Past.hear
  dsimp only
  rw [List.filter_filter]
  split
  · next hheard =>
    rw [List.filter_eq_nil_iff.mpr]
    · rfl
    · intro given _ hfits
      rw [Bool.and_eq_true, beq_iff_eq] at hfits
      rw [hfits.1, hheard] at hfits
      exact absurd hfits.2 (by decide)
  · next hnot =>
    congr 2
    refine List.filter_congr fun given _ => ?_
    by_cases hsame : given.entity = entity
    · rw [hsame, Bool.eq_false_iff.mpr hnot, Bool.not_false, Bool.and_true]
    · rw [show (given.entity == entity) = false from beq_false_of_ne hsame]
      rfl

lemma latest_append (past : Past) (given : Given) (entity : EntityId) :
    ({ past with given := past.given ++ [given] } : Past).latest entity =
      if given.entity = entity then given.asksFor else past.latest entity := by
  unfold Past.latest
  rw [List.filter_append]
  split
  · next hsame =>
    have hmine : [given].filter (fun given => given.entity == entity) = [given] :=
      List.filter_cons_of_pos (beq_iff_eq.mpr hsame)
    rw [hmine, List.getLast?_append_of_ne_nil _ (List.cons_ne_nil _ _)]
    rfl
  · next hne =>
    have hnone : [given].filter (fun given => given.entity == entity) = [] :=
      List.filter_cons_of_neg (by
        rw [beq_false_of_ne hne]
        exact Bool.false_ne_true)
    rw [hnone, List.append_nil]

lemma latest_refuse (past : Past) {k : Nat} {entity : EntityId}
    (h : ∀ given ∈ past.given, given.entity = entity → given.call ≠ k) :
    (past.refuse k).latest entity = past.latest entity := by
  unfold Past.latest Past.refuse
  dsimp only
  rw [List.filter_filter]
  congr 2
  refine List.filter_congr fun given hgiven => ?_
  by_cases hsame : given.entity = entity
  · rw [show (given.call != k) = true from bne_iff_ne.mpr (h given hgiven hsame), Bool.and_true]
  · rw [beq_false_of_ne hsame]
    rfl

/-! ### One step -/

/-- What the core has of an entity is what it was given by the last call that was carried out, or,
while a call is on its way, what that call asks for. -/
structure InTurn (services : Services κ σ ς) (s : Calling κ σ ς) (past : Past) : Prop where
  queued : Queued s
  given : ∀ given ∈ past.given, given.call < s.nextCall ∧
    ∀ call, s.calls[given.call]? = some call → call.entity = given.entity
  quiet : ∀ entity, (∀ (k : Nat) (call : Call ς), s.calls[k]? = some call → call.entity = entity →
    call.phase.sent = none) → s.home.commanded[entity]? = past.latest entity
  sent : ∀ (k : Nat) (call : Call ς) (resolved : Resolved ς), s.calls[k]? = some call →
    call.phase.sent = some resolved → s.home.commanded[call.entity]? =
      if past.fresh.contains (call.entity, k) then services.asksFor resolved.service else none

variable {services : Services κ σ ς}

lemma InTurn.moves (h : InTurn services s past) {k : Nat} {call : Call ς}
    (hcall : s.calls[k]? = some call) {phase : CallPhase ς} (hsent : phase.sent = call.phase.sent)
    {s' : Calling κ σ ς} (hcalls : s'.calls = s.calls.insert k { call with phase })
    (hnext : s'.nextCall = s.nextCall) (hcommanded : s'.home.commanded = s.home.commanded)
    (hqueued : Queued s') : InTurn services s' past := by
  have hget : ∀ {j : Nat} {other : Call ς}, s'.calls[j]? = some other →
      ∃ before, s.calls[j]? = some before ∧ other.entity = before.entity ∧
        other.phase.sent = before.phase.sent := by
    intro j other hother
    rw [hcalls] at hother
    rcases get_withPhase (s := s) hother with ⟨rfl, rfl⟩ | ⟨_, hold⟩
    · exact ⟨call, hcall, rfl, hsent⟩
    · exact ⟨other, hold, rfl, rfl⟩
  refine ⟨hqueued, fun given hgiven => ?_, fun entity hnone => ?_,
    fun j other resolved hother hphase => ?_⟩
  · obtain ⟨hmade, hentity⟩ := h.given given hgiven
    refine ⟨by rw [hnext]; exact hmade, fun other hother => ?_⟩
    obtain ⟨before, hbefore, hsame, _⟩ := hget hother
    exact hsame.trans (hentity before hbefore)
  · rw [hcommanded]
    refine h.quiet entity fun j before hbefore hsame => ?_
    by_cases hmine : j = k
    · rw [hmine, hcall] at hbefore
      cases hbefore
      rw [← hsent]
      exact hnone k { call with phase } (by rw [hcalls, Map.get_insert, if_pos rfl]) hsame
    · exact hnone j before (by
        rw [hcalls, Map.get_insert, if_neg fun heq => hmine heq.symm]
        exact hbefore) hsame
  · obtain ⟨before, hbefore, hsame, hway⟩ := hget hother
    rw [hcommanded, hsame]
    exact h.sent j before resolved hbefore (hway.symm.trans hphase)

lemma InTurn.settles (h : InTurn services s past) {k : Nat} {call : Call ς}
    (hcall : s.calls[k]? = some call) (hturn : call.phase.hasTurn = true) {phase : CallPhase ς}
    (hsent : phase.sent = none) {home : Home κ σ} {past' : Past}
    (hgiven : ∀ given ∈ past'.given, given ∈ past.given ∨
      given.entity = call.entity ∧ given.call = k)
    (hfresh : past'.fresh = past.fresh) (htold : home.commanded[call.entity]? = past'.latest call.entity)
    (hothers : ∀ entity, entity ≠ call.entity →
      home.commanded[entity]? = s.home.commanded[entity]? ∧
        past'.latest entity = past.latest entity) :
    InTurn services (({ s with home } : Calling κ σ ς).withPhase k call phase) past' := by
  have hother : Queued ({ s with home } : Calling κ σ ς) := h.queued.congr
  have hqueued : Queued (({ s with home } : Calling κ σ ς).withPhase k call phase) :=
    hother.moves hcall (.inr (CallPhase.unreleased_of_turn hturn)) fun _ => .inl hturn
  refine ⟨hqueued, fun given hmem => ?_, fun entity hnone => ?_,
    fun j other resolved hother hway => ?_⟩
  · rcases hgiven given hmem with hold | ⟨hentity, hmine⟩
    · obtain ⟨hmade, hsame⟩ := h.given given hold
      refine ⟨hmade, fun other hother => ?_⟩
      rcases get_withPhase hother with ⟨hk, rfl⟩ | ⟨_, hbefore⟩
      · exact hsame call (by rw [hk]; exact hcall)
      · exact hsame other hbefore
    · refine ⟨by rw [hmine]; exact h.queued.calls k call hcall, fun other hother => ?_⟩
      rcases get_withPhase hother with ⟨_, rfl⟩ | ⟨hne, _⟩
      · exact hentity.symm
      · exact absurd hmine hne
  · by_cases hmine : entity = call.entity
    · rw [hmine]
      exact htold
    · obtain ⟨hcommanded, hlatest⟩ := hothers entity hmine
      rw [hlatest, ← h.quiet entity fun j before hbefore hsame => ?_]
      · exact hcommanded
      · have hne : j ≠ k := by
          rintro rfl
          rw [hcall] at hbefore
          cases hbefore
          exact hmine hsame.symm
        exact hnone j before (by
          show (s.calls.insert k _)[j]? = some before
          rw [Map.get_insert, if_neg hne.symm]
          exact hbefore) hsame
  · rcases get_withPhase hother with ⟨_, rfl⟩ | ⟨hne, hbefore⟩
    · rw [hsent] at hway
      cases hway
    · have hotherEntity : other.entity ≠ call.entity := fun hsame =>
        hne (h.queued.alone hbefore hcall hsame (CallPhase.hasTurn_of_sent hway) hturn)
      rw [hfresh]
      exact ((hothers other.entity hotherEntity).1).trans (h.sent j other resolved hbefore hway)

lemma InTurn.record (h : InTurn services s past) {k : Nat} {call : Call ς}
    (hcall : s.calls[k]? = some call) {resolved : Resolved ς} (hphase : call.phase = .resolved resolved)
    {home : Home κ σ}
    (htold : home.commanded[call.entity]? = services.asksFor resolved.service)
    (hothers : ∀ entity, entity ≠ call.entity →
      home.commanded[entity]? = s.home.commanded[entity]?) :
    InTurn services (({ s with home } : Calling κ σ ς).withPhase k call (.recorded resolved))
      { past with fresh := past.fresh ++ [(call.entity, k)] } := by
  have hturn : call.phase.hasTurn = true := by
    rw [hphase]
    rfl
  have hother : Queued ({ s with home } : Calling κ σ ς) := h.queued.congr
  have hqueued : Queued (({ s with home } : Calling κ σ ς).withPhase k call (.recorded resolved)) :=
    hother.moves hcall (.inr (CallPhase.unreleased_of_turn hturn)) fun _ => .inl hturn
  refine ⟨hqueued, fun given hmem => ?_, fun entity hnone => ?_,
    fun j other way hother hway => ?_⟩
  · obtain ⟨hmade, hsame⟩ := h.given given hmem
    refine ⟨hmade, fun other hother => ?_⟩
    rcases get_withPhase hother with ⟨hk, rfl⟩ | ⟨_, hbefore⟩
    · exact hsame call (by rw [hk]; exact hcall)
    · exact hsame other hbefore
  · have hmine : entity ≠ call.entity := by
      rintro rfl
      have hthis := hnone k { call with phase := .recorded resolved } (by
        show (s.calls.insert k _)[k]? = some _
        rw [Map.get_insert, if_pos rfl]) rfl
      cases hthis
    show home.commanded[entity]? = past.latest entity
    rw [hothers entity hmine]
    refine h.quiet entity fun j before hbefore hsame => ?_
    have hne : j ≠ k := by
      rintro rfl
      rw [hcall] at hbefore
      cases hbefore
      exact hmine hsame.symm
    exact hnone j before (by
      show (s.calls.insert k _)[j]? = some before
      rw [Map.get_insert, if_neg hne.symm]
      exact hbefore) hsame
  · rcases get_withPhase hother with ⟨rfl, rfl⟩ | ⟨hne, hbefore⟩
    · cases hway
      rw [if_pos]
      · exact htold
      · exact List.contains_iff_mem.mpr (List.mem_append_right _ (List.mem_singleton_self _))
    · have hotherEntity : other.entity ≠ call.entity := fun hsame =>
        hne (h.queued.alone hbefore hcall hsame (CallPhase.hasTurn_of_sent hway) hturn)
      have hfresh : (past.fresh ++ [(call.entity, k)]).contains (other.entity, j) =
          past.fresh.contains (other.entity, j) := by
        rw [Bool.eq_iff_iff, List.contains_iff_mem, List.contains_iff_mem, List.mem_append,
          List.mem_singleton]
        exact or_iff_left fun heq => hotherEntity (congrArg Prod.fst heq)
      rw [hfresh]
      exact (hothers other.entity hotherEntity).trans (h.sent j other way hbefore hway)

lemma InTurn.hear (h : InTurn services s past) {home : Home κ σ} {heard : EntityId → Bool}
    (hforgets : Forgets s.home home fun id => heard id = true) :
    InTurn services ({ s with home } : Calling κ σ ς) (past.hear heard) := by
  refine ⟨h.queued.congr, fun given hmem => h.given given (List.mem_of_mem_filter hmem),
    fun entity hnone => ?_, fun j other resolved hother hway => ?_⟩
  · rw [latest_hear]
    split
    · next hheard => exact hforgets.gone entity hheard
    · next hnot =>
      show home.commanded[entity]? = past.latest entity
      rw [hforgets.others entity hnot]
      exact h.quiet entity hnone
  · have hbefore := h.sent j other resolved hother hway
    show home.commanded[other.entity]? = _
    by_cases hheard : heard other.entity = true
    · rw [hforgets.gone other.entity hheard, if_neg]
      intro hfresh
      obtain ⟨_, hnot⟩ := List.mem_filter.mp (List.contains_iff_mem.mp hfresh)
      rw [hheard] at hnot
      cases hnot
    · have hfresh : (past.hear heard).fresh.contains (other.entity, j) =
          past.fresh.contains (other.entity, j) := by
        rw [Bool.eq_iff_iff, List.contains_iff_mem, List.contains_iff_mem]
        refine List.mem_filter.trans (and_iff_left ?_)
        rw [Bool.eq_false_iff.mpr hheard]
        rfl
      rw [hforgets.others other.entity hheard, hfresh]
      exact hbefore

lemma InTurn.begin (h : InTurn services s past) (entity : EntityId) (command : Command)
    (context : Context) : InTurn services (s.begin entity command context) past := by
  have hnew : s.calls[s.nextCall]? = none := by
    cases hcall : s.calls[s.nextCall]? with
    | none => rfl
    | some call => exact absurd (h.queued.calls _ call hcall) (lt_irrefl _)
  refine ⟨h.queued.begin entity command context, fun given hmem => ?_, fun other hnone => ?_,
    fun j other resolved hother hway => ?_⟩
  · obtain ⟨hmade, hsame⟩ := h.given given hmem
    refine ⟨Nat.lt_succ_of_lt hmade, fun call hcall => ?_⟩
    rcases get_begin hcall with ⟨hk, _⟩ | hold
    · exact absurd hk hmade.ne
    · exact hsame call hold
  · refine h.quiet other fun j before hbefore hsame => hnone j before ?_ hsame
    show (s.calls.insert s.nextCall _)[j]? = some before
    rw [Map.get_insert, if_neg]
    · exact hbefore
    · rintro rfl
      rw [hnew] at hbefore
      cases hbefore
  · rcases get_begin hother with ⟨_, rfl⟩ | hold
    · cases hway
    · exact h.sent j other resolved hold hway

lemma InTurn.drop (h : InTurn services s past) {k : Nat} {call : Call ς}
    (hcall : s.calls[k]? = some call) (hreleased : call.phase.isReleased = true) :
    InTurn services ({ s with calls := s.calls.erase k } : Calling κ σ ς) past := by
  refine ⟨h.queued.drop k, fun given hmem => ?_, fun entity hnone => ?_,
    fun j other resolved hother hway =>
      h.sent j other resolved (Map.get_erase_some hother).2 hway⟩
  · obtain ⟨hmade, hsame⟩ := h.given given hmem
    exact ⟨hmade, fun other hother => hsame other (Map.get_erase_some hother).2⟩
  · refine h.quiet entity fun j before hbefore hsame => ?_
    by_cases hmine : j = k
    · rw [hmine, hcall] at hbefore
      cases hbefore
      unfold CallPhase.isReleased at hreleased
      split at hreleased
      · next result hphase =>
        rw [hphase]
        rfl
      · cases hreleased
    · exact hnone j before (by
        show (s.calls.erase k)[j]? = some before
        rw [Map.get_erase, if_neg fun heq => hmine heq.symm]
        exact hbefore) hsame

lemma InTurn.goes (h : InTurn services s past) {k : Nat} {call : Call ς}
    (hcall : s.calls[k]? = some call) {phase : CallPhase ς} (hsent : phase.sent = call.phase.sent)
    {home : Home κ σ} (hcommanded : home.commanded = s.home.commanded)
    (hreleased : phase.isReleased = true ∨ call.phase.isReleased = false)
    (hturn : phase.hasTurn = true → call.phase.hasTurn = true ∨
      ∀ (j : Nat) (other : Call ς), s.calls[j]? = some other → other.lock = call.lock →
        other.phase.hasTurn = false) :
    InTurn services (({ s with home } : Calling κ σ ς).withPhase k call phase) past := by
  have hother : Queued ({ s with home } : Calling κ σ ς) := h.queued.congr
  exact h.moves hcall hsent rfl rfl hcommanded (hother.moves hcall hreleased hturn)

lemma InTurn.resolves (h : InTurn services s past) {k : Nat} {call : Call ς}
    (hcall : s.calls[k]? = some call) (hphase : call.phase = .turn)
    (line : Option (Except CallError Unit)) (stamp : Stamp) :
    InTurn services (s.resolves services k call line stamp) past := by
  have hturn : call.phase.hasTurn = true := by
    rw [hphase]
    rfl
  have hends : ∀ (home : Home κ σ) (result : CallResult), SameCalls s.home home →
      InTurn services (({ s with home } : Calling κ σ ς).withPhase k call (.ending result)) past :=
    fun _ _ hsame => h.goes hcall (by rw [hphase]; rfl) hsame.commanded
      (.inr (CallPhase.unreleased_of_turn hturn)) fun _ => .inl hturn
  have hgoesOn : ∀ (home : Home κ σ) (resolved : Resolved ς), SameCalls s.home home →
      InTurn services (({ s with home } : Calling κ σ ς).withPhase k call (.resolved resolved))
        past :=
    fun _ _ hsame => h.goes hcall (by rw [hphase]; rfl) hsame.commanded
      (.inr (CallPhase.unreleased_of_turn hturn)) fun _ => .inl hturn
  unfold Calling.resolves
  split
  · exact hends s.home _ (.refl s.home)
  · split
    · exact hends _ _ (skipUpdate_same s.home call.entity call.context stamp)
    · exact hends _ _ (clearSkippedUpdate_same s.home call.entity call.context stamp)
    · split
      · exact hgoesOn _ _ (beginUpdate_same s.home call.entity stamp)
      · exact hends s.home _ (.refl s.home)
    · exact hgoesOn s.home _ (.refl s.home)

lemma get_recordCommand (home : Home κ σ) (entity other : EntityId) (asksFor : Option Typed) :
    (home.recordCommand entity asksFor).commanded[other]? =
      if entity = other then asksFor else home.commanded[other]? := by
  unfold Home.recordCommand
  cases asksFor with
  | none => exact Map.get_erase home.commanded entity other
  | some value => exact Map.get_insert home.commanded entity other value

lemma get_forgetCommand (home : Home κ σ) (entity other : EntityId) :
    (home.forgetCommand entity).commanded[other]? =
      if entity = other then none else home.commanded[other]? :=
  Map.get_erase home.commanded entity other

lemma InTurn.forget (h : InTurn services s past) {k : Nat} {call : Call ς}
    (hcall : s.calls[k]? = some call) {resolved : Resolved ς}
    (hway : call.phase.sent = some resolved) (hnone : (past.latest call.entity).isNone = true)
    (result : CallResult) : InTurn services (s.forget k call resolved result) past := by
  have htold : ∀ other, (((s.home.forgetCall resolved.protocol call.context.id).forgetCommand
      call.entity).commanded)[other]? =
        if call.entity = other then none else s.home.commanded[other]? :=
    get_forgetCommand _ call.entity
  refine h.settles hcall (CallPhase.hasTurn_of_sent hway) rfl (fun _ hmem => .inl hmem) rfl ?_
    fun other hne => ⟨?_, rfl⟩
  · rw [htold, if_pos rfl, Option.isNone_iff_eq_none.mp hnone]
  · rw [htold, if_neg hne.symm]

lemma InTurn.deliver (h : InTurn services s past) {k : Nat} {call : Call ς}
    (hcall : s.calls[k]? = some call) {resolved : Resolved ς}
    (hphase : call.phase = .sending resolved)
    (hheeds : ((services.asksFor resolved.service).isNone ||
      past.fresh.contains (call.entity, k)) = true) :
    InTurn services (s.withPhase k call (.delivered resolved))
      { past with
        given := past.given ++ [⟨call.entity, k, services.asksFor resolved.service⟩] } := by
  have hway : call.phase.sent = some resolved := by
    rw [hphase]
    rfl
  have htold := h.sent k call resolved hcall hway
  refine h.settles hcall (CallPhase.hasTurn_of_sent hway) rfl (fun given hmem => ?_) rfl ?_
    fun other hne => ⟨rfl, ?_⟩
  · rcases List.mem_append.mp hmem with hold | hnew
    · exact .inl hold
    · rw [List.mem_singleton.mp hnew]
      exact .inr ⟨rfl, rfl⟩
  · rw [latest_append, if_pos rfl, htold]
    rcases Bool.or_eq_true_iff.mp hheeds with hasks | hfresh
    · rw [Option.isNone_iff_eq_none.mp hasks, ite_self]
    · rw [if_pos hfresh]
  · rw [latest_append, if_neg hne.symm]

lemma InTurn.refuse (h : InTurn services s past) {k : Nat} {call : Call ς}
    (hcall : s.calls[k]? = some call) {resolved : Resolved ς}
    (hphase : call.phase = .delivered resolved)
    (hnone : ((past.refuse k).latest call.entity).isNone = true) (result : CallResult) :
    InTurn services (({ s with home := s.home.forgetCommand call.entity } :
      Calling κ σ ς).withPhase k call (.ending result)) (past.refuse k) := by
  have hturn : call.phase.hasTurn = true := by
    rw [hphase]
    rfl
  refine h.settles hcall hturn rfl (fun _ hmem => .inl (List.mem_of_mem_filter hmem)) rfl ?_
    fun other hne => ⟨?_, ?_⟩
  · rw [get_forgetCommand, if_pos rfl, Option.isNone_iff_eq_none.mp hnone]
  · rw [get_forgetCommand, if_neg hne.symm]
  · refine latest_refuse past fun given hgiven hentity hcallIs => hne ?_
    have hsame := (h.given given hgiven).2 call (by rw [hcallIs]; exact hcall)
    exact hentity.symm.trans hsame.symm

section

variable [DecidableEq κ] [DecidableEq σ]

lemma inTurn_after (kinds : Kinds κ σ) (h : InTurn services s past) {step : CallStep κ σ}
    (hheeds : HeedsTurn services s past step = true) :
    InTurn services (s.after kinds services step) (past.after kinds services s step) := by
  unfold HeedsTurn at hheeds
  unfold Calling.after Past.after
  cases step with
  | told op =>
    dsimp only
    cases hsender : op.sender with
    | none => exact h
    | some protocol =>
      cases hperformed : s.home.perform kinds op with
      | none => exact h
      | some outcome =>
        obtain ⟨result, home⟩ := outcome
        exact h.hear (perform_forgets s.home kinds (by rw [hsender]; rfl) hperformed)
  | begins entity command context => exact h.begin entity command context
  | getsTurn k =>
    dsimp only
    split
    · next call hcall =>
      split
      · next hphase =>
        split
        · exact h
        · next hfree =>
          exact h.goes hcall (by rw [hphase]; rfl) rfl (.inr (by rw [hphase]; rfl)) fun _ =>
            .inr fun j other hother hlock => nobody_of_not_locked hfree j other hother hlock
      · exact h
    · exact h
  | leaves k result =>
    dsimp only
    split
    · next call hcall =>
      split
      · next hphase =>
        exact h.goes hcall (by rw [hphase]; rfl) rfl (.inr (by rw [hphase]; rfl)) fun hturn =>
          nomatch hturn
      · exact h
    · exact h
  | resolves k line stamp =>
    dsimp only
    split
    · next call hcall =>
      split
      · next hphase => exact h.resolves hcall hphase line stamp
      · exact h
    · exact h
  | dispatches k isRunning now =>
    dsimp only
    cases hcall : s.calls[k]? with
    | none => exact h
    | some call =>
      obtain ⟨entity, command, context, lock, phase⟩ := call
      cases phase with
      | resolved resolved =>
        dsimp only
        unfold Calling.dispatches
        split_ifs
        · refine h.record hcall rfl ?_ fun other hne => ?_
          · rw [get_recordCommand, if_pos rfl]
          · rw [get_recordCommand, if_neg hne.symm]
            rfl
        · exact h.goes hcall (by rfl) rfl (.inr rfl) fun _ => .inl rfl
      | _ => exact h
  | checks k =>
    dsimp only at hheeds ⊢
    cases hcall : s.calls[k]? with
    | none => exact h
    | some call =>
      rw [hcall] at hheeds
      obtain ⟨entity, command, context, lock, phase⟩ := call
      cases phase with
      | recorded resolved =>
        dsimp only at hheeds ⊢
        unfold Calling.checks
        split_ifs with hstill
        · exact h.goes hcall (by rfl) rfl (.inr rfl) fun _ => .inl rfl
        · rw [Bool.eq_false_iff.mpr hstill, Bool.false_or] at hheeds
          exact h.forget hcall rfl hheeds _
      | _ => exact h
  | fails k result =>
    dsimp only at hheeds ⊢
    cases hcall : s.calls[k]? with
    | none => exact h
    | some call =>
      rw [hcall] at hheeds
      obtain ⟨entity, command, context, lock, phase⟩ := call
      cases phase with
      | sending resolved => exact h.forget hcall rfl hheeds result
      | _ => exact h
  | delivers k now =>
    dsimp only at hheeds ⊢
    cases hcall : s.calls[k]? with
    | none => exact h
    | some call =>
      rw [hcall] at hheeds
      obtain ⟨entity, command, context, lock, phase⟩ := call
      cases phase with
      | sending resolved => exact h.deliver hcall rfl hheeds
      | _ => exact h
  | answered k answer =>
    dsimp only at hheeds ⊢
    cases hcall : s.calls[k]? with
    | none => exact h
    | some call =>
      rw [hcall] at hheeds
      obtain ⟨entity, command, context, lock, phase⟩ := call
      cases phase with
      | delivered resolved =>
        dsimp only at hheeds ⊢
        unfold Calling.answered
        cases hresult : answer.result with
        | none => exact h.goes hcall (by rfl) rfl (.inr rfl) fun _ => .inl rfl
        | some result =>
          cases result with
          | ok done => exact h.goes hcall (by rfl) rfl (.inr rfl) fun _ => .inl rfl
          | error e =>
            rw [hresult] at hheeds
            exact h.refuse hcall rfl hheeds (some (.error e))
      | _ => exact h
  | givesTurn k =>
    dsimp only
    split
    · next call hcall =>
      split
      · next hphase =>
        exact h.goes hcall (by rw [hphase]; rfl) rfl (.inr (by rw [hphase]; rfl)) fun hturn =>
          nomatch hturn
      · exact h
    · exact h
  | releases k =>
    dsimp only
    split
    · next call hcall =>
      split
      · next result hphase =>
        exact h.moves hcall (by rw [hphase]; rfl) rfl rfl rfl (h.queued.release hcall hphase)
      · exact h
    · exact h
  | drops k =>
    dsimp only
    split
    · next call hcall =>
      split
      · next hreleased => exact h.drop hcall hreleased
      · exact h
    · exact h

end

/-! ### A run -/

lemma takesTurns_of_inTurn (h : InTurn services s past) : TakesTurns services s past := by
  refine ⟨fun j k first second hfirst hsecond hentity => h.queued.alone hfirst hsecond hentity,
    fun k call hcall hphase => ?_⟩
  have hquiet : s.home.commanded[call.entity]? = past.latest call.entity := by
    refine h.quiet call.entity fun j other hother hentity => ?_
    cases hway : other.phase.sent with
    | none => rfl
    | some resolved =>
      have hsame : j = k := h.queued.alone hother hcall hentity (CallPhase.hasTurn_of_sent hway)
        (by rw [hphase]; rfl)
      rw [hsame, hcall] at hother
      cases hother
      rw [hphase] at hway
      cases hway
  unfold Home.resolve Home.current
  rw [hquiet]

lemma allTakeTurns_of_inTurn [DecidableEq κ] [DecidableEq σ] (kinds : Kinds κ σ)
    (h : InTurn services s past) (steps : List (CallStep κ σ))
    (hheed : AllHeedTurns kinds services s past steps = true) :
    AllTakeTurns kinds services s past steps := by
  induction steps generalizing s past with
  | nil => exact takesTurns_of_inTurn h
  | cons step steps ih =>
    rw [AllHeedTurns, Bool.and_eq_true] at hheed
    exact ⟨takesTurns_of_inTurn h, ih (inTurn_after kinds h hheed.1) hheed.2⟩

lemma inTurn_start : InTurn services (.start Home.new : Calling κ σ ς) .start := by
  have hno : ∀ k : Nat, (Calling.start Home.new : Calling κ σ ς).calls[k]? = none := by
    intro k
    show (∅ : Map Nat (Call ς))[k]? = none
    simp
  refine ⟨⟨fun k call hcall => ?_, fun k call hcall => ?_, fun j _ first _ hfirst => ?_⟩,
    fun _ hmem => (nomatch hmem), fun entity _ => ?_, fun k call resolved hcall => ?_⟩
  · rw [hno] at hcall
    cases hcall
  · rw [hno] at hcall
    cases hcall
  · rw [hno] at hfirst
    cases hfirst
  · show (∅ : Map EntityId Typed)[entity]? = none
    simp
  · rw [hno] at hcall
    cases hcall

/-- Calls on an entity take turns, and each goes from what the entity was last told: in every run in
which a call that isn't delivered, or is refused, comes when its entity was told nothing by an
earlier one that it hasn't been heard of since, and in which an entity isn't heard of between a
call's being recorded and delivered. -/
theorem allTakeTurns_of_heeds [DecidableEq κ] [DecidableEq σ] (kinds : Kinds κ σ)
    (services : Services κ σ ς) (steps : List (CallStep κ σ))
    (h : AllHeedTurns kinds services (.start Home.new) .start steps = true) :
    AllTakeTurns kinds services (.start Home.new) .start steps :=
  allTakeTurns_of_inTurn kinds inTurn_start steps h

def Calling.tellAll [DecidableEq κ] [DecidableEq σ] (kinds : Kinds κ σ) (services : Services κ σ ς)
    (s : Calling κ σ ς) (past : Past) : List (CallStep κ σ) → Calling κ σ ς × Past
  | [] => (s, past)
  | step :: steps =>
    (s.after kinds services step).tellAll kinds services (past.after kinds services s step) steps

lemma AllTakeTurns.last [DecidableEq κ] [DecidableEq σ] {kinds : Kinds κ σ}
    {steps : List (CallStep κ σ)} (h : AllTakeTurns kinds services s past steps) :
    TakesTurns services (s.tellAll kinds services past steps).1
      (s.tellAll kinds services past steps).2 := by
  induction steps generalizing s past with
  | nil => exact h
  | cons step steps ih => exact ih h.2

/-- The switch is turned on, and a second call that turns it off ends as it does. -/
def Sample.thenFails (report : List (CallStep Sample.Ability Sample.On)) :
    List (CallStep Sample.Ability Sample.On) :=
  Sample.lampThere ++ Sample.asks 0 "turn_on" (Sample.cause 1) ++
    [.delivers 0 0, .answered 0 .done] ++ report ++ Sample.leaves 0 ++
    Sample.asks 1 "turn_off" (Sample.cause 2) ++
    [.delivers 1 0, .answered 1 (.failed "no")] ++ Sample.leaves 1

def Sample.thenToggles (report : List (CallStep Sample.Ability Sample.On)) :
    List (CallStep Sample.Ability Sample.On) :=
  Sample.thenFails report ++
    [.begins Sample.lampId ⟨Command.toggle, []⟩ (Sample.cause 3), .getsTurn 2]

/-- What a call comes to isn't what its entity was last told makes it. -/
def Sample.isOtherwise (s : Calling Sample.Ability Sample.On Bool × Past) (call : Call Bool) : Bool :=
  (s.1.home.resolve Sample.services call.entity call.command).toOption.map Resolved.service !=
    (s.1.home.resolveFrom Sample.services
      ((s.2.latest call.entity).or (s.1.home.reported Sample.services call.entity)) call.entity
        call.command).toOption.map Resolved.service

theorem allTakeTurns_thenToggles :
    AllTakeTurns Sample.kinds Sample.services (.start Home.new) .start
      (Sample.thenToggles [Sample.isNow true none]) :=
  allTakeTurns_of_heeds Sample.kinds Sample.services _ (by decide)

/-- Where the switch didn't report that it is on, the toggle turns it on once more. -/
theorem not_allTakeTurns_thenToggles :
    ¬ AllTakeTurns Sample.kinds Sample.services (.start Home.new) .start
      (Sample.thenToggles []) := by
  intro h
  have hdiffers : ((Calling.tellAll Sample.kinds Sample.services (.start Home.new) .start
      (Sample.thenToggles [])).1.calls[2]?).any (fun call =>
        call.phase.isTurn && Sample.isOtherwise
          (Calling.tellAll Sample.kinds Sample.services (.start Home.new) .start
            (Sample.thenToggles [])) call) = true := by
    decide +kernel
  obtain ⟨call, hcall, hboth⟩ := (Option.any_eq_true _ _).mp hdiffers
  obtain ⟨hturn, hother⟩ := Bool.and_eq_true_iff.mp hboth
  have htold := h.last.told 2 call hcall (CallPhase.eq_turn hturn)
  exact bne_iff_ne.mp hother (congrArg (fun result => result.toOption.map Resolved.service) htold)

end Irori.Core
