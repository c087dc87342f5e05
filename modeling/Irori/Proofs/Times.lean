import Irori.Home.Sample
import Irori.Proofs.Keys

/-!
# Time in states

Whatever the clock reads when a home is told something, the times of a state only go forward,
and what is told of a state continues what was told of it before.
-/

namespace Irori.Proofs
open Irori Irori.Core

variable {κ σ : Type}

/-! ### What is told of states -/

/-- What there is to know of states in the order it happens: the events, and the replayed reports
of entities that count every report, which change a state and tell nothing. -/
inductive Said (κ σ : Type)
  | event (event : Event κ σ)
  | replayed (entityId : EntityId)

def SameButReported (a b : Core.EntityState σ) : Prop :=
  b = { a with lastReported := b.lastReported }

abbrev LastTold (σ : Type) := EntityId → Option (Core.EntityState σ)

/-- Every change of a state starts from what was told last of it. -/
def Chained : LastTold σ → List (Said κ σ) → Prop
  | _, [] => True
  | told, .event (.stateChanged E old new) :: rest =>
    (∀ s, told E = some s → ∃ o, old = some o ∧ SameButReported s o) ∧
      Chained (Function.update told E (some new)) rest
  | told, .replayed E :: rest => Chained (Function.update told E none) rest
  | told, .event _ :: rest => Chained told rest

def lastTold : LastTold σ → List (Said κ σ) → LastTold σ
  | told, [] => told
  | told, .event (.stateChanged E _ new) :: rest =>
    lastTold (Function.update told E (some new)) rest
  | told, .replayed E :: rest => lastTold (Function.update told E none) rest
  | told, .event _ :: rest => lastTold told rest

structure Later (old new : Core.EntityState σ) : Prop where
  lastChanged : old.lastChanged ≤ new.lastChanged
  lastUpdated : old.lastUpdated ≤ new.lastUpdated
  lastReported : old.lastReported ≤ new.lastReported
  ordered : old.lastChanged ≤ old.lastUpdated → new.lastChanged ≤ new.lastUpdated

lemma Later.refl (s : Core.EntityState σ) : Later s s := ⟨le_rfl, le_rfl, le_rfl, id⟩

lemma Later.trans {a b c : Core.EntityState σ} (hab : Later a b) (hbc : Later b c) : Later a c :=
  ⟨hab.lastChanged.trans hbc.lastChanged, hab.lastUpdated.trans hbc.lastUpdated,
    hab.lastReported.trans hbc.lastReported, fun h => hbc.ordered (hab.ordered h)⟩

lemma SameButReported.refl (s : Core.EntityState σ) : SameButReported s s := rfl

def OfNoState : Event κ σ → Prop
  | .stateChanged _ _ _ => False
  | _ => True

def SameEntities (a b : Home κ σ) : Prop :=
  ∀ E : EntityId, b.entities[E]? = none ↔ a.entities[E]? = none

/-- How a home's states become another's with none removed, and what is said of it. -/
inductive Tells : Home κ σ → List (Said κ σ) → Home κ σ → Prop
  | quiet {a b : Home κ σ} {events : List (Event κ σ)} (entities : SameEntities a b)
      (states : b.states = a.states) (other : ∀ event ∈ events, OfNoState event) :
      Tells a (events.map .event) b
  | changed {a b : Home κ σ} {E : EntityId} {old new : Core.EntityState σ}
      (entities : SameEntities a b) (had : a.states[E]? = some old) (later : Later old new)
      (states : b.states = a.states.insert E new) :
      Tells a [.event (.stateChanged E (some old) new)] b
  /-- It is heard again, which is not told. -/
  | heard {a b : Home κ σ} {E : EntityId} {old new : Core.EntityState σ}
      (entities : SameEntities a b) (had : a.states[E]? = some old) (later : Later old new)
      (same : SameButReported old new) (states : b.states = a.states.insert E new) :
      Tells a [] b
  /-- A report is replayed, which is not told. -/
  | replayed {a b : Home κ σ} {E : EntityId} {old new : Core.EntityState σ}
      (entities : SameEntities a b) (had : a.states[E]? = some old) (later : Later old new)
      (states : b.states = a.states.insert E new) :
      Tells a [.replayed E] b
  | added {a b : Home κ σ} {E : EntityId} {entity : Entity κ} {new : Core.EntityState σ}
      (fresh : a.entities[E]? = none) (ordered : new.lastChanged ≤ new.lastUpdated)
      (entities : b.entities = a.entities.insert E entity)
      (states : b.states = a.states.insert E new) :
      Tells a [.event (.entityAdded entity), .event (.stateChanged E none new)] b
  | trans {a b c : Home κ σ} {l m : List (Said κ σ)} (first : Tells a l b)
      (second : Tells b m c) : Tells a (l ++ m) c

/-- Only what there is an entity for has a state, and none has changed after it was updated. -/
structure Stamped (home : Home κ σ) : Prop where
  states : ∀ E : EntityId, home.entities[E]? = none → home.states[E]? = none
  ordered : ∀ (E : EntityId) (s : Core.EntityState σ), home.states[E]? = some s →
    s.lastChanged ≤ s.lastUpdated

lemma stamped_new : Stamped (Home.new : Home κ σ) := by
  constructor <;> simp [Home.new]

namespace Tells

variable {a b c : Home κ σ} {l m : List (Said κ σ)}

lemma silent (entities : SameEntities a b) (states : b.states = a.states) : Tells a [] b :=
  (Tells.quiet entities states (by simp) : Tells a (([] : List (Event κ σ)).map .event) b)

lemma refl (a : Home κ σ) : Tells a [] a := silent (fun _ => Iff.rfl) rfl

lemma Stamped.set {E : EntityId} {old new : Core.EntityState σ} (h : Stamped a)
    (hentities : SameEntities a b) (had : a.states[E]? = some old) (hlater : Later old new)
    (hstates : b.states = a.states.insert E new) : Stamped b where
  states F hF := by
    have hnone := h.states F ((hentities F).1 hF)
    rw [hstates, Map.get_insert, if_neg, hnone]
    rintro rfl
    rw [had] at hnone
    cases hnone
  ordered F s hs := by
    rw [hstates] at hs
    rcases Map.get_insert_some hs with ⟨rfl, rfl⟩ | ⟨-, hs⟩
    · exact hlater.ordered (h.ordered E old had)
    · exact h.ordered F s hs

lemma stamped (h : Tells a l b) (ha : Stamped a) : Stamped b := by
  induction h with
  | quiet entities states other =>
    exact ⟨fun E hE => by rw [states]; exact ha.states E ((entities E).1 hE),
      fun E s hs => ha.ordered E s (states ▸ hs)⟩
  | changed entities had later states => exact Stamped.set ha entities had later states
  | heard entities had later same states => exact Stamped.set ha entities had later states
  | replayed entities had later states => exact Stamped.set ha entities had later states
  | added fresh ordered entities states =>
    constructor
    · intro F hF
      rw [entities, Map.get_insert] at hF
      split at hF
      · cases hF
      · next hne =>
        rw [states, Map.get_insert, if_neg hne]
        exact ha.states F hF
    · intro F s hs
      rw [states] at hs
      rcases Map.get_insert_some hs with ⟨rfl, rfl⟩ | ⟨-, hs⟩
      · exact ordered
      · exact ha.ordered F s hs
  | trans _ _ ih ih' => exact ih' (ih ha)

lemma later (h : Tells a l b) (ha : Stamped a) {E : EntityId}
    {old : Core.EntityState σ} (hold : a.states[E]? = some old) :
    ∃ new, b.states[E]? = some new ∧ Later old new := by
  have hset : ∀ {a b : Home κ σ} {F : EntityId} {was new old : Core.EntityState σ},
      a.states[F]? = some was → Later was new → b.states = a.states.insert F new →
      a.states[E]? = some old → ∃ new, b.states[E]? = some new ∧ Later old new := by
    intro a b F was new old had hlater hstates hold
    rw [hstates, Map.get_insert]
    split
    · next heq =>
      subst heq
      obtain rfl : was = old := Option.some.inj (had.symm.trans hold)
      exact ⟨new, rfl, hlater⟩
    · exact ⟨old, hold, .refl old⟩
  induction h generalizing old with
  | quiet entities states other => exact ⟨old, by rw [states, hold], .refl old⟩
  | changed entities had later states => exact hset had later states hold
  | heard entities had later same states => exact hset had later states hold
  | replayed entities had later states => exact hset had later states hold
  | added fresh ordered entities states =>
    rw [states, Map.get_insert]
    split
    · next heq =>
      subst heq
      rw [ha.states _ fresh] at hold
      cases hold
    · exact ⟨old, hold, .refl old⟩
  | trans first _ ih ih' =>
    obtain ⟨mid, hmid, hlater⟩ := ih ha hold
    obtain ⟨new, hnew, hlater'⟩ := ih' (first.stamped ha) hmid
    exact ⟨new, hnew, hlater.trans hlater'⟩

end Tells

/-! ### One thing said after another -/

/-- What was told last of an entity is its state, up to when it was last reported. -/
def Tracks (told : LastTold σ) (home : Home κ σ) : Prop :=
  ∀ (E : EntityId) (s : Core.EntityState σ), told E = some s →
    ∃ o, home.states[E]? = some o ∧ SameButReported s o

lemma chained_append (told : LastTold σ) (l m : List (Said κ σ)) :
    Chained told (l ++ m) ↔ Chained told l ∧ Chained (lastTold told l) m := by
  fun_induction lastTold told l with
  | case1 told => simp [Chained]
  | case2 told E old new rest ih => simp [Chained, ih, and_assoc]
  | case3 told E rest ih => simp [Chained, ih]
  | case4 told event rest hevent ih => simp [Chained, ih]

lemma lastTold_append (told : LastTold σ) (l m : List (Said κ σ)) :
    lastTold told (l ++ m) = lastTold (lastTold told l) m := by
  fun_induction lastTold told l with
  | case1 told => rfl
  | case2 told E old new rest ih => simpa [lastTold] using ih
  | case3 told E rest ih => simpa [lastTold] using ih
  | case4 told event rest hevent ih => simpa [lastTold] using ih

lemma chained_other (told : LastTold σ) {events : List (Event κ σ)}
    (hother : ∀ event ∈ events, OfNoState event) :
    Chained told (events.map Said.event) ∧ lastTold told (events.map Said.event) = told := by
  induction events with
  | nil => exact ⟨trivial, rfl⟩
  | cons event events ih =>
    obtain ⟨hchained, hlast⟩ := ih fun e he => hother e (List.mem_cons_of_mem _ he)
    have hhead := hother event List.mem_cons_self
    cases event <;> first | exact hhead.elim | exact ⟨hchained, hlast⟩

lemma Tracks.update {told : LastTold σ} {a b : Home κ σ} {E : EntityId}
    {new : Core.EntityState σ} (h : Tracks told a) (hstates : b.states = a.states.insert E new)
    {now : Option (Core.EntityState σ)} (hnow : ∀ s, now = some s → SameButReported s new) :
    Tracks (Function.update told E now) b := by
  intro F s hs
  rw [hstates, Map.get_insert]
  by_cases heq : E = F
  · subst heq
    rw [Function.update_self] at hs
    exact ⟨new, if_pos rfl, hnow s hs⟩
  · rw [Function.update_of_ne (Ne.symm heq)] at hs
    rw [if_neg heq]
    exact h F s hs

lemma Tells.chained {a b : Home κ σ} {l : List (Said κ σ)}
    (h : Tells a l b) (ha : Stamped a) {told : LastTold σ}
    (htold : Tracks told a) : Chained told l ∧ Tracks (lastTold told l) b := by
  induction h generalizing told with
  | quiet entities states other =>
    obtain ⟨hchained, hlast⟩ := chained_other told other
    refine ⟨hchained, ?_⟩
    rw [hlast]
    intro E s hs
    rw [states]
    exact htold E s hs
  | @changed a b E old new entities had later states =>
    refine ⟨⟨fun s hs => ?_, trivial⟩, htold.update states fun s hs => ?_⟩
    · obtain ⟨o, ho, hsame⟩ := htold E s hs
      obtain rfl : old = o := Option.some.inj (had.symm.trans ho)
      exact ⟨old, rfl, hsame⟩
    · cases hs
      exact .refl new
  | @heard a b E old new entities had later same states =>
    refine ⟨trivial, ?_⟩
    have hsame : Tracks (Function.update told E (told E)) b := htold.update states fun s hs => by
      obtain ⟨o, ho, hso⟩ := htold E s hs
      obtain rfl : old = o := Option.some.inj (had.symm.trans ho)
      unfold SameButReported at hso same ⊢
      rw [same, hso]
    rwa [Function.update_eq_self] at hsame
  | replayed entities had later states =>
    exact ⟨trivial, htold.update states fun s hs => by cases hs⟩
  | @added a b E entity new fresh ordered entities states =>
    refine ⟨⟨fun s hs => ?_, trivial⟩, htold.update states fun s hs => ?_⟩
    · obtain ⟨o, ho, -⟩ := htold E s hs
      rw [ha.states E fresh] at ho
      cases ho
    · cases hs
      exact .refl new
  | trans first _ ih ih' =>
    obtain ⟨hl, hmid⟩ := ih ha htold
    obtain ⟨hm, hend⟩ := ih' (first.stamped ha) hmid
    rw [chained_append, lastTold_append]
    exact ⟨⟨hl, hm⟩, hend⟩

/-! ### What each operation says -/

section Operations

variable {home next : Home κ σ} {kinds : Kinds κ σ}

lemma sameEntities_refl (home : Home κ σ) : SameEntities home home := fun _ => Iff.rfl

lemma le_clamped (now updated reported : Timestamp) :
    updated ≤ max (max now updated) reported ∧ reported ≤ max (max now updated) reported :=
  ⟨le_max_of_le_left (le_max_right _ _), le_max_right _ _⟩

lemma setAvailabilityOf1_tells (home : Home κ σ) (h : Stamped home) (availability : Availability)
    (now : Timestamp) (context : Core.Context) (reported : Reported) (E : EntityId) :
    Tells home
      ((home.setAvailabilityOf1 availability now context reported E).1.map .event)
      (home.setAvailabilityOf1 availability now context reported E).2 := by
  unfold Home.setAvailabilityOf1
  split
  · exact .refl home
  · next old hold =>
    have hordered := h.ordered E old hold
    split
    · dsimp only
      split
      · refine .heard (sameEntities_refl home) hold ?_ ?_ rfl
        · exact ⟨le_rfl, le_rfl, le_max_right _ _, id⟩
        · rfl
      · exact .refl home
    · refine .changed (sameEntities_refl home) hold ⟨?_, le_max_right _ _, ?_, fun _ => le_rfl⟩ rfl
      · exact hordered.trans (le_max_right _ _)
      · dsimp only
        split
        · exact le_max_right _ _
        · exact le_rfl

lemma setAvailabilityOf_tells (home : Home κ σ) (h : Stamped home) (ids : List EntityId)
    (availability : Availability) (now : Timestamp) (context : Core.Context)
    (reported : Reported) :
    Tells home
      ((home.setAvailabilityOf ids availability now context reported).1.map .event)
      (home.setAvailabilityOf ids availability now context reported).2 := by
  refine Home.setAvailabilityOf_induct
    (motive := fun changes => Tells home (changes.1.map .event) changes.2) (.refl home)
    fun changes E _ hsaid => ?_
  have hnext := setAvailabilityOf1_tells changes.2 (hsaid.stamped h)
    availability now context reported E
  have hboth := hsaid.trans hnext
  rwa [← List.map_append] at hboth

lemma forgetMisfit_tells (h : Stamped home) {E : EntityId} (capabilities : κ)
    {old : Core.EntityState σ} (hold : home.states[E]? = some old) (stamp : Stamp) :
    Tells home ((home.forgetMisfit kinds E capabilities old stamp).1.map .event)
      (home.forgetMisfit kinds E capabilities old stamp).2 := by
  unfold Home.forgetMisfit
  split
  · exact .refl home
  · split
    · exact .refl home
    · refine .changed (sameEntities_refl home) hold ⟨?_, le_max_right _ _, le_rfl, fun _ => le_rfl⟩ rfl
      exact (h.ordered E old hold).trans (le_max_right _ _)

lemma changeUpdate_tells (h : Stamped home) (E : EntityId) (context : Core.Context)
    (stamp : Stamp) (change : UpdateState → UpdateState) :
    Tells home ((home.changeUpdate E context stamp change).1.map .event)
      (home.changeUpdate E context stamp change).2 := by
  unfold Home.changeUpdate
  split
  · exact .refl home
  · next old hold =>
    split
    · dsimp only
      split
      · exact .refl home
      · have hordered := h.ordered E old hold
        have hupdated : old.lastUpdated ≤ max stamp.now old.lastUpdated := le_max_right _ _
        refine .changed (sameEntities_refl home) hold ⟨?_, hupdated, le_rfl, fun _ => ?_⟩ rfl
        · dsimp only
          split
          · exact le_rfl
          · exact hordered.trans hupdated
        · dsimp only
          split
          · exact hordered.trans hupdated
          · exact le_rfl
    · exact .refl home

lemma Tells.beside {a b : Home κ σ} {l : List (Said κ σ)} (home : Home κ σ)
    (hentities : a.entities = home.entities) (hstates : a.states = home.states)
    (h : Tells a l b) : Tells home l b := by
  have hfirst : Tells home [] a := .silent (fun E => by rw [hentities]) hstates
  exact hfirst.trans h

lemma Stamped.beside {a b : Home κ σ} (h : Stamped a) (hentities : b.entities = a.entities)
    (hstates : b.states = a.states) : Stamped b :=
  ⟨fun E hE => by rw [hstates]; exact h.states E (by rwa [hentities] at hE),
    fun E s hs => h.ordered E s (by rwa [hstates] at hs)⟩

lemma foldReport_beside (home : Home κ σ) (p : ProtocolId) (E : EntityId)
    (report : StateReport σ) :
    (home.foldReport p E report).2.entities = home.entities ∧
      (home.foldReport p E report).2.states = home.states ∧
      (home.foldReport p E report).1.replayed = report.replayed := by
  unfold Home.foldReport
  split
  · simp only [Home.foldUpdate]
    split <;> simp
  · exact ⟨rfl, rfl, rfl⟩

section Reporting

variable [DecidableEq σ]

def keptSays (E : EntityId) (report : StateReport σ) (events : List (Event κ σ)) :
    List (Said κ σ) :=
  (if E.kind.countsEveryReport && report.replayed then [.replayed E] else []) ++ events.map .event

lemma keepReport_tells (h : Stamped home) (p : ProtocolId) (report : StateReport σ)
    (parent : Option ContextId) (stamp : Stamp) {E : EntityId} {old : Core.EntityState σ}
    (hold : home.states[E]? = some old) :
    Tells home
      (keptSays E report (home.keepReport p report parent stamp E old).1)
      (home.keepReport p report parent stamp E old).2 := by
  obtain ⟨hupdated, hreported⟩ := le_clamped stamp.now old.lastUpdated old.lastReported
  have hordered := h.ordered E old hold
  unfold Home.keepReport keptSays
  dsimp only
  split
  · refine .replayed (sameEntities_refl home) hold ?_ rfl
    split
    · exact ⟨le_rfl, hupdated, hreported, fun _ => hordered.trans hupdated⟩
    · exact ⟨le_rfl, le_rfl, hreported, id⟩
  · split
    · refine .changed (sameEntities_refl home) hold ⟨?_, hupdated, hreported, fun _ => ?_⟩ rfl
      · dsimp only
        split
        · exact hordered.trans hupdated
        · exact le_rfl
      · dsimp only
        split
        · exact le_rfl
        · exact hordered.trans hupdated
    · refine .heard (sameEntities_refl home) hold ?_ ?_ rfl
      · exact ⟨le_rfl, le_rfl, hreported, id⟩
      · rfl

lemma reportLive_tells (h : Stamped home) {p : ProtocolId} {report : StateReport σ}
    {stamp : Stamp} {E : EntityId} {result : Except Rejected (List (Event κ σ))}
    (hrun : home.reportLive kinds p report stamp E = some (result, next)) :
    (∀ events, result = .ok events → Tells home (keptSays E report events) next) ∧
      ∀ e, result = .error e → Tells home [] next := by
  unfold Home.reportLive at hrun
  split at hrun
  · cases hrun
  · split at hrun
    · cases hrun
      exact ⟨by simp, fun _ _ => .refl home⟩
    · obtain ⟨hentities, hstates, hreplayed⟩ := foldReport_beside home p E report
      generalize home.foldReport p E report = folded at hentities hstates hreplayed hrun
      obtain ⟨folded, mid⟩ := folded
      dsimp only at hentities hstates hreplayed hrun
      have hmid : Stamped mid := h.beside hentities hstates
      have hkept : ∀ (parent : Option ContextId) (old : Core.EntityState σ),
          mid.states[E]? = some old → Tells home
            (keptSays E report (mid.keepReport p folded parent stamp E old).1)
            (mid.keepReport p folded parent stamp E old).2 := fun parent old hold => by
        have htells := keepReport_tells hmid p folded parent stamp hold
        unfold keptSays at htells ⊢
        rw [hreplayed] at htells
        exact htells.beside home hentities hstates
      split at hrun
      · split at hrun
        · split at hrun
          · cases hrun
          · next old hold =>
            cases hrun
            exact ⟨fun events hevents => by cases hevents; exact hkept _ old hold, by simp⟩
        · cases hrun
          exact ⟨by simp, fun _ _ => Tells.beside home hentities hstates (.refl next)⟩
      · split at hrun
        · cases hrun
        · next old hold =>
          cases hrun
          exact ⟨fun events hevents => by cases hevents; exact hkept _ old hold, by simp⟩

end Reporting

/-! ### What is asked of a home about its states -/

/-- The occurrences a request replays. -/
def replays (home : Home κ σ) : HomeOp κ σ → List (Said κ σ)
  | .reportState p report _ =>
    match home.foundEntities[(⟨p, report.uniqueId⟩ : Key)]?,
      home.entityKeys[(⟨p, report.uniqueId⟩ : Key)]? with
    | none, some E => if E.kind.countsEveryReport && report.replayed then [.replayed E] else []
    | _, _ => []
  | _ => []

/-- What a request says, given how it is answered. -/
def sayings (home : Home κ σ) (op : HomeOp κ σ) :
    Except Rejected (List (Event κ σ)) → List (Said κ σ)
  | .error _ => []
  | .ok events => replays home op ++ events.map .event

def AboutStates : HomeOp κ σ → Prop
  | .reportState _ _ _ | .setAvailability _ _ _ _ | .markUnavailable _ _ | .describeEntity _ _ _ _
  | .skipUpdate _ _ _ | .clearSkippedUpdate _ _ _ | .beginUpdate _ _ | .failUpdate _ _ _ => True
  | _ => False

section Asked

variable [DecidableEq σ] {p : ProtocolId} {stamp : Stamp}
  {result : Except Rejected (List (Event κ σ))}

lemma reportState_tells (h : Stamped home) {report : StateReport σ}
    (hrun : home.reportState kinds p report stamp = some (result, next)) :
    Tells home (sayings home (.reportState p report stamp) result) next := by
  have hcleaned : (Home.cleaned report).uniqueId = report.uniqueId ∧
      (Home.cleaned report).replayed = report.replayed := by
    unfold Home.cleaned
    split <;> exact ⟨rfl, rfl⟩
  unfold Home.reportState at hrun
  dsimp only at hrun
  rw [hcleaned.1] at hrun
  split at hrun
  · cases hrun
    exact .refl home
  · split at hrun
    · next D hD =>
      cases hrun
      have hsay : sayings home (.reportState p report stamp) (.ok []) = [] := by
        simp [sayings, replays, hD]
      rw [hsay]
      exact .silent (sameEntities_refl home) rfl
    · next hfound =>
      split at hrun
      · cases hrun
        exact .refl home
      · next E hE =>
        obtain ⟨hok, herror⟩ := reportLive_tells h hrun
        cases result with
        | error e => exact herror e rfl
        | ok events =>
          have htells := hok events rfl
          rw [keptSays, hcleaned.2] at htells
          simp only [sayings, replays, hfound, hE]
          exact htells

omit [DecidableEq σ] in
lemma setAvailability_tells (h : Stamped home) (p : ProtocolId) (target : AvailabilityTarget)
    (availability : Availability) (stamp : Stamp) :
    Tells home (sayings home (.setAvailability p target availability stamp)
        (home.setAvailability p target availability stamp).1)
      (home.setAvailability p target availability stamp).2 := by
  have hset : ∀ ids context, Tells home
      ((home.setAvailabilityOf ids availability stamp.now context .yes).1.map .event)
      (home.setAvailabilityOf ids availability stamp.now context .yes).2 :=
    fun ids context => setAvailabilityOf_tells home h ids availability stamp.now context .yes
  unfold Home.setAvailability
  dsimp only
  split
  · split
    · exact .silent (sameEntities_refl home) rfl
    · split
      · exact .refl home
      · exact hset _ _
  · split
    · exact .refl home
    · split
      · exact .refl home
      · exact hset _ _

omit [DecidableEq σ] in
lemma skipUpdate_tells (h : Stamped home) (E : EntityId) (context : Core.Context)
    (stamp : Stamp) : Tells home (sayings home (.skipUpdate E context stamp)
      (home.skipUpdate E context stamp).1) (home.skipUpdate E context stamp).2 := by
  unfold Home.skipUpdate
  dsimp only
  split
  · exact .refl home
  · split
    · exact .refl home
    · split
      · exact .refl home
      · exact .refl home
      · refine Tells.beside home ?_ ?_ (changeUpdate_tells ?_ E context stamp _)
        · rfl
        · rfl
        · exact h.beside rfl rfl

omit [DecidableEq σ] in
lemma clearSkippedUpdate_tells (h : Stamped home) (E : EntityId) (context : Core.Context)
    (stamp : Stamp) : Tells home ((home.clearSkippedUpdate E context stamp).1.map .event)
      (home.clearSkippedUpdate E context stamp).2 := by
  unfold Home.clearSkippedUpdate
  split
  · exact .refl home
  · refine Tells.beside home ?_ ?_ (changeUpdate_tells ?_ E context stamp _)
    · rfl
    · rfl
    · exact h.beside rfl rfl

section Describing

variable [DecidableEq κ] {said : EntityDescription κ} {listed : List EntityKind}

omit [DecidableEq σ] in
lemma updateEntity_tells (h : Stamped home) {device : Option DeviceId} {E : EntityId}
    (hrun : home.updateEntity kinds p listed said device stamp E = some (result, next)) :
    Tells home (sayings home (.describeEntity p listed said stamp) result) next := by
  unfold Home.updateEntity at hrun
  split at hrun
  · cases hrun
  · next before hE =>
    split at hrun
    · cases hrun
      exact .refl home
    · dsimp only at hrun
      split at hrun
      · next name old hname hold =>
        simp only [Option.some.injEq, Prod.mk.injEq] at hrun
        obtain ⟨rfl, rfl⟩ := hrun
        simp only [sayings, replays, List.nil_append, List.map_append]
        have hstart : ∀ (names : Map EntityId Name)
            (descriptions : Map EntityId (List EntityKind × EntityDescription κ))
            (entity : Entity κ), Tells home
              ((if entity = before then [] else [.entityUpdated entity]).map Said.event)
              { home with
                reportedEntityNames := names
                entityDescriptions := descriptions
                entities := home.entities.insert E entity } := by
          intro names descriptions entity
          refine .quiet (fun F => ?_) rfl ?_
          · rw [Map.get_insert]
            split
            · next heq => simp [← heq, hE]
            · rfl
          · split <;> simp [OfNoState]
        refine .trans (.trans (hstart _ _ _) (forgetMisfit_tells ?_ _ ?_ stamp))
          (setAvailabilityOf_tells _ ?_ _ _ _ _ _)
        · exact (hstart _ _ _).stamped h
        · exact hold
        · refine (forgetMisfit_tells ?_ _ ?_ stamp).stamped ?_
          · exact (hstart _ _ _).stamped h
          · exact hold
          · exact (hstart _ _ _).stamped h
      · cases hrun

omit [DecidableEq κ] [DecidableEq σ] in
lemma addEntity_tells {device : Option Device}
    (hrun : home.addEntity kinds p listed said device stamp = some (result, next)) :
    Tells home (sayings home (.describeEntity p listed said stamp) result) next := by
  obtain ⟨otherwise, base, E, hotherwise, hbase, hE, hfresh⟩ := addEntity_id hrun
  simp only [Home.addEntity, hotherwise, hbase, hE] at hrun
  cases hrun
  refine .added hfresh ?_ rfl rfl
  exact le_rfl

omit [DecidableEq σ] in
lemma describeEntity_tells (h : Stamped home)
    (hrun : home.describeEntity kinds p listed said stamp = some (result, next)) :
    Tells home (sayings home (.describeEntity p listed said stamp) result) next := by
  have hlive : ∀ device : Option Device,
      home.describeLive kinds p listed said stamp device = some (result, next) →
      Tells home (sayings home (.describeEntity p listed said stamp) result) next := by
    intro device hrun
    unfold Home.describeLive at hrun
    split at hrun
    · exact updateEntity_tells h hrun
    · exact addEntity_tells hrun
  unfold Home.describeEntity at hrun
  split at hrun
  · cases hrun
    exact .refl home
  · dsimp only at hrun
    split at hrun
    · cases hrun
      exact .refl home
    · split at hrun
      · exact hlive _ hrun
      · split at hrun
        · cases hrun
          exact .silent (sameEntities_refl home) rfl
        · split at hrun
          · cases hrun
            exact .refl home
          · split at hrun
            · cases hrun
            · exact hlive _ hrun

lemma perform_tells (h : Stamped home) {op : HomeOp κ σ} (hop : AboutStates op)
    (hrun : home.perform kinds op = some (result, next)) :
    Tells home (sayings home op result) next := by
  cases op with
  | describeEntity p listed said stamp => exact describeEntity_tells h hrun
  | reportState p report stamp => exact reportState_tells h hrun
  | setAvailability p target availability stamp =>
    have htells := setAvailability_tells h p target availability stamp
    rw [show home.setAvailability p target availability stamp = (result, next) from
      Option.some.inj hrun] at htells
    exact htells
  | markUnavailable p stamp =>
    cases hrun
    exact setAvailabilityOf_tells home h _ _ _ _ _
  | skipUpdate E context stamp =>
    have htells := skipUpdate_tells h E context stamp
    rw [show home.skipUpdate E context stamp = (result, next) from Option.some.inj hrun] at htells
    exact htells
  | clearSkippedUpdate E context stamp =>
    cases hrun
    exact clearSkippedUpdate_tells h E context stamp
  | beginUpdate E stamp =>
    cases hrun
    exact changeUpdate_tells h E _ stamp _
  | failUpdate E why stamp =>
    cases hrun
    exact changeUpdate_tells h E _ stamp _
  | _ => exact hop.elim

end Describing

end Asked

/-! ### The other operations -/

section Others

variable {p : ProtocolId} {stamp : Stamp} {result : Except Rejected (List (Event κ σ))}

def Untold (a b : Home κ σ) : Prop := SameEntities a b ∧ b.states = a.states

lemma Stamped.untold {a b : Home κ σ} (h : Stamped a) (hab : Untold a b) : Stamped b :=
  (Tells.silent hab.1 hab.2).stamped h

lemma Untold.trans {a b c : Home κ σ} (hab : Untold a b) (hbc : Untold b c) : Untold a c :=
  ⟨fun E => (hbc.1 E).trans (hab.1 E), hbc.2.trans hab.2⟩

lemma Untold.of_eq {a b : Home κ σ} (hentities : b.entities = a.entities)
    (hstates : b.states = a.states) : Untold a b :=
  ⟨fun E => by rw [hentities], hstates⟩

lemma Renamed.untold {a b : Home κ σ} (h : Renamed a b) : Untold a b := by
  obtain ⟨entities, rfl, htie⟩ := h
  exact ⟨(Renamed.alike ⟨entities, rfl, htie⟩).entity_none, rfl⟩

lemma describeDevice_untold {said : DeviceDescription}
    (hrun : home.describeDevice kinds p said = some (result, next)) : Untold home next := by
  unfold Home.describeDevice at hrun
  split at hrun
  · cases hrun
    exact .of_eq rfl rfl
  · dsimp only at hrun
    split at hrun
    · cases hrun
      unfold Home.keepFound
      dsimp only
      split <;> exact .of_eq rfl rfl
    · split at hrun
      · cases hrun
        exact .of_eq rfl rfl
      · split at hrun
        · unfold Home.updateDevice at hrun
          split at hrun
          · cases hrun
            exact .of_eq rfl rfl
          · split at hrun
            · cases hrun
            · dsimp only at hrun
              split at hrun
              · cases hrun
                exact .of_eq rfl rfl
              · split at hrun
                · cases hrun
                  exact .of_eq rfl rfl
                · obtain ⟨changes, hchanges, heq⟩ := Option.map_eq_some_iff.mp hrun
                  cases heq
                  refine sweep_run (Untold home) (fun E _ home' changes hstep h => ?_) ?_ hchanges
                  · exact h.trans (renameEntity_run hstep).untold
                  · exact .of_eq rfl rfl
        · unfold Home.addDevice at hrun
          dsimp only at hrun
          split at hrun
          · cases hrun
            exact .of_eq rfl rfl
          · cases hrun
            exact .of_eq rfl rfl

lemma removeEntity_stamped (h : Stamped home) (p : ProtocolId) (u : UniqueId) :
    Stamped (home.removeEntity p u).2 := by
  unfold Home.removeEntity
  dsimp only
  split
  · exact h.beside rfl rfl
  · split
    · exact h
    · next E hE =>
      constructor
      · intro F hF
        dsimp only at hF ⊢
        rw [Map.get_erase] at hF ⊢
        split
        · rfl
        · next hne =>
          rw [if_neg hne] at hF
          exact h.states F hF
      · intro F s hs
        exact h.ordered F s (Map.get_erase_some hs).2

lemma removeEntities_stamped (es : List (Entity κ)) :
    ∀ {home : Home κ σ}, Stamped home → Stamped (Home.removeEntities es home).2 := by
  induction es with
  | nil => exact fun h => h
  | cons e es ih =>
    intro home h
    have hmid := removeEntity_stamped h e.protocol e.uniqueId
    rw [Home.removeEntities]
    split
    · next hpair => rwa [hpair] at hmid
    · next hpair =>
      rw [hpair] at hmid
      exact ih hmid

lemma removeDevice_stamped (h : Stamped home) (p : ProtocolId) (u : UniqueId) :
    Stamped (home.removeDevice p u).2 := by
  unfold Home.removeDevice
  dsimp only
  split
  · exact h.beside rfl rfl
  · split
    · exact h
    · next D hD =>
      have hstart : Stamped { home with
          deviceKeys := home.deviceKeys.erase ⟨p, u⟩
          deviceDescriptions := home.deviceDescriptions.erase D } := h.beside rfl rfl
      split
      · next hpair => exact congrArg Prod.snd hpair ▸ removeEntities_stamped _ hstart
      · next hpair =>
        have hmid := congrArg Prod.snd hpair ▸ removeEntities_stamped _ hstart
        exact hmid.beside rfl rfl

lemma hold_stamped (h : Stamped home) (D : DeviceId) : Stamped (home.hold D).2 := by
  unfold Home.hold
  split
  · exact (removeDevice_stamped h _ _).beside rfl rfl
  · exact h

lemma refreshEntity_untold {E : EntityId} {changes : Changes κ σ}
    (hrun : home.refreshEntity E = some changes) : Untold home changes.2 := by
  unfold Home.refreshEntity at hrun
  split at hrun
  · exact (renameEntity_run hrun).untold
  · cases hrun

lemma refreshDevice_untold {D : DeviceId} {changes : Changes κ σ}
    (hrun : home.refreshDevice kinds D = some changes) : Untold home changes.2 := by
  unfold Home.refreshDevice at hrun
  split at hrun
  · dsimp only at hrun
    split at hrun <;> cases hrun <;> exact .of_eq rfl rfl
  · cases hrun

lemma removeProtocol_stamped (h : Stamped home) (p : ProtocolId) :
    Stamped (home.removeProtocol p).2 :=
  removeProtocol_run Stamped (fun p u h => removeDevice_stamped h p u) h p

section Settings

variable [DecidableEq κ] [DecidableEq σ]

lemma admits_stamped (kinds : Kinds κ σ) (stamp : Stamp) : Admitting kinds stamp Stamped where
  dropFound _ _ h := h.beside rfl rfl
  device h hrun := h.untold (describeDevice_untold hrun)
  entity h hrun := (describeEntity_tells h hrun).stamped h
  report h hrun := (reportState_tells h hrun).stamped h
  availability _ _ _ h := (setAvailability_tells h _ _ _ _).stamped h

lemma applySettings_stamped (h : Stamped home) {settings : Settings} {changes : Changes κ σ}
    (hrun : home.applySettings kinds settings stamp = some changes) : Stamped changes.2 :=
  (admits_stamped kinds stamp).applySettings (fun _ h => h.beside rfl rfl)
    (fun D h => hold_stamped h D) (fun h hstep => h.untold (refreshDevice_untold hstep))
    (fun h hstep => h.untold (refreshEntity_untold hstep)) h hrun

lemma perform_stamped (h : Stamped home) {op : HomeOp κ σ}
    (hrun : home.perform kinds op = some (result, next)) : Stamped next := by
  cases op with
  | describeDevice p said => exact h.untold (describeDevice_untold hrun)
  | removeDevice p u => exact run_snd hrun ▸ removeDevice_stamped h p u
  | removeEntity p u => exact run_snd hrun ▸ removeEntity_stamped h p u
  | applySettings settings stamp =>
    obtain ⟨changes, hchanges, htold⟩ := Option.bind_eq_some_iff.mp hrun
    exact run_snd htold ▸ applySettings_stamped h hchanges
  | forgetDevice D =>
    refine run_snd hrun ▸ ?_
    unfold Home.forgetDevice
    split
    · exact hold_stamped h D
    · split <;> exact h
  | removeProtocol p => exact run_snd hrun ▸ removeProtocol_stamped h p
  | recordCommand | forgetCommand | recordCall | forgetCall | skipsToStore | restoreSkips =>
    exact run_snd hrun ▸ h.beside rfl rfl
  | _ =>
    refine (perform_tells h ?_ hrun).stamped h
    trivial

lemma comesTo_stamped {Allowed : Home κ σ → HomeOp κ σ → Prop} (h : ComesTo kinds Allowed home) :
    Stamped home := by
  induction h with
  | new => exact stamped_new
  | step op _ _ hrun ih => exact perform_stamped ih hrun

end Settings

end Others

/-! ### Runs -/

section Runs

variable [DecidableEq κ] [DecidableEq σ]

/-- What several requests say, and the home after them. -/
def performSaying (kinds : Kinds κ σ) :
    List (HomeOp κ σ) → Home κ σ → Option (List (Said κ σ) × Home κ σ)
  | [], home => some ([], home)
  | op :: ops, home =>
    match home.perform kinds op with
    | none => none
    | some (result, next) =>
      (performSaying kinds ops next).map fun (more, last) => (sayings home op result ++ more, last)

lemma performSaying_tells (h : Stamped home) {ops : List (HomeOp κ σ)}
    (hops : ∀ op ∈ ops, AboutStates op) {log : List (Said κ σ)}
    (hrun : performSaying kinds ops home = some (log, next)) : Tells home log next := by
  induction ops generalizing home log with
  | nil =>
    cases hrun
    exact .refl _
  | cons op ops ih =>
    rw [performSaying] at hrun
    split at hrun
    · cases hrun
    · next result mid hmid =>
      obtain ⟨⟨more, last⟩, hmore, heq⟩ := Option.map_eq_some_iff.mp hrun
      cases heq
      have hfirst := perform_tells h (hops op List.mem_cons_self) hmid
      exact hfirst.trans (ih (hfirst.stamped h)
        (fun op hop => hops op (List.mem_cons_of_mem _ hop)) hmore)

/-- Whatever the clock reads, over requests about states no time of a state goes back, no state
has changed after it was updated, and every change told starts from what was told last. -/
theorem times_forward (h : Reachable kinds home) {ops : List (HomeOp κ σ)}
    (hops : ∀ op ∈ ops, AboutStates op) {log : List (Said κ σ)}
    (hrun : performSaying kinds ops home = some (log, next)) :
    (∀ (E : EntityId) (old : Core.EntityState σ), home.states[E]? = some old →
      ∃ new, next.states[E]? = some new ∧ old.lastChanged ≤ new.lastChanged ∧
        old.lastUpdated ≤ new.lastUpdated ∧ old.lastReported ≤ new.lastReported) ∧
    (∀ (E : EntityId) (s : Core.EntityState σ), next.states[E]? = some s →
      s.lastChanged ≤ s.lastUpdated) ∧
    Chained (fun E => home.states[E]?) log := by
  have hstamped := comesTo_stamped h
  have htells := performSaying_tells hstamped hops hrun
  refine ⟨fun E old hold => ?_, (htells.stamped hstamped).ordered, ?_⟩
  · obtain ⟨new, hnew, hlater⟩ := htells.later hstamped hold
    exact ⟨new, hnew, hlater.lastChanged, hlater.lastUpdated, hlater.lastReported⟩
  · exact (htells.chained hstamped fun E s hs => ⟨s, hs, .refl s⟩).1

/-- An update that is described, and reports a version while the clock reads an earlier time. -/
theorem times_forward_update : ∃ (home next : Home Sample.Ability Sample.On)
    (log : List (Said Sample.Ability Sample.On)) (old new : Core.EntityState Sample.On),
    performSaying Sample.kinds
      [.reportState Sample.demo (Sample.offered "2" none) ⟨-5, ulid 0 1⟩] home = some (log, next) ∧
    log.length = 1 ∧ home.states[Sample.updateId]? = some old ∧
    next.states[Sample.updateId]? = some new ∧ old.lastReported ≤ new.lastReported ∧
    new.lastChanged ≤ new.lastUpdated ∧ Chained (fun E => home.states[E]?) log := by
  have hready : (Home.performAll Sample.kinds
      [.describeDevice Sample.demo (Sample.described Sample.deviceA),
        .describeEntity Sample.demo [.update]
          (Sample.nameless Sample.relay Sample.deviceA .update) Sample.stamp] Home.new).any
      (fun home => home.states.contains Sample.updateId &&
        (performSaying Sample.kinds
          [.reportState Sample.demo (Sample.offered "2" none) ⟨-5, ulid 0 1⟩] home).any
          fun run => run.1.length == 1) = true := by
    decide
  rw [Option.any_eq_true] at hready
  obtain ⟨home, hhome, hready⟩ := hready
  rw [Bool.and_eq_true, Option.any_eq_true] at hready
  obtain ⟨hstate, ⟨log, next⟩, hrun, hlength⟩ := hready
  have hreachable : Reachable Sample.kinds home :=
    ComesTo.new.performAll (fun _ _ => trivial) hhome
  obtain ⟨hlater, hordered, hchained⟩ := times_forward hreachable
    (fun op hop => by rw [List.mem_singleton.1 hop]; trivial) hrun
  have hcontains : ∃ old, home.states[Sample.updateId]? = some old := by
    rw [← Option.isSome_iff_exists]
    simpa using hstate
  obtain ⟨old, hold⟩ := hcontains
  obtain ⟨new, hnew, -, -, hreported⟩ := hlater _ old hold
  exact ⟨home, next, log, old, new, hrun, by simpa using hlength, hold, hnew, hreported,
    hordered _ new hnew, hchained⟩

end Runs

end Operations

end Irori.Proofs
