import Irori.Flows.System
import Irori.Proofs.Steps

/-!
# What the engine does in one go

Every operation of the engine is a sequence of turns: a run is moved, a ready token is run, a run
ends, a firing is handed over, the flows are replaced, effects are taken, and things are changed
that no run depends on. A property of runs that every move keeps holds of every run the engine has,
and of every run whose record it has given out.
-/

namespace Irori.Proofs

open Irori

lemma scheduleAll_eq (timers : List (Timestamp × Timer)) (e : Engine) :
    ∃ (sorted : List (Timestamp × Nat × Timer)) (next : Nat),
      e.scheduleAll timers = { e with timers := sorted, nextTimer := next } := by
  induction timers generalizing e with
  | nil => exact ⟨e.timers, e.nextTimer, rfl⟩
  | cons entry timers ih => exact ih (e.schedule entry.1 entry.2)

section

variable (e : Engine) (id : ContextId) (m : Moved)

lemma settle_eq : ∃ (sorted : List (Timestamp × Nat × Timer)) (next : Nat),
    e.settle id m = { e with
      runs := e.runs.insert id m.run,
      ready := e.ready ++ m.ready.map fun token => (id, token),
      effects := e.effects ++ m.effects,
      nextCall := e.nextCall + m.calls,
      ledger := { e.ledger with
        evaluated := e.ledger.evaluated ++ m.evaluated,
        doubled := e.ledger.doubled ++ m.doubled },
      timers := sorted, nextTimer := next } := by
  unfold Engine.settle
  obtain ⟨sorted, next, h⟩ := scheduleAll_eq m.timers { e with
    runs := e.runs.insert id m.run,
    ready := e.ready ++ m.ready.map fun token => (id, token),
    effects := e.effects ++ m.effects,
    nextCall := e.nextCall + m.calls,
    ledger := { e.ledger with
      evaluated := e.ledger.evaluated ++ m.evaluated,
      doubled := e.ledger.doubled ++ m.doubled } }
  exact ⟨sorted, next, h⟩

@[simp] lemma settle_runs : (e.settle id m).runs = e.runs.insert id m.run := by
  obtain ⟨_, _, h⟩ := settle_eq e id m
  rw [h]

@[simp] lemma settle_ready :
    (e.settle id m).ready = e.ready ++ m.ready.map fun token => (id, token) := by
  obtain ⟨_, _, h⟩ := settle_eq e id m
  rw [h]

@[simp] lemma settle_effects : (e.settle id m).effects = e.effects ++ m.effects := by
  obtain ⟨_, _, h⟩ := settle_eq e id m
  rw [h]

@[simp] lemma settle_flows : (e.settle id m).flows = e.flows := by
  obtain ⟨_, _, h⟩ := settle_eq e id m
  rw [h]

@[simp] lemma settle_minted : (e.settle id m).minted = e.minted := by
  obtain ⟨_, _, h⟩ := settle_eq e id m
  rw [h]

@[simp] lemma settle_ledger : (e.settle id m).ledger = { e.ledger with
    evaluated := e.ledger.evaluated ++ m.evaluated,
    doubled := e.ledger.doubled ++ m.doubled } := by
  obtain ⟨_, _, h⟩ := settle_eq e id m
  rw [h]

end

def pending (e : Engine) (id : ContextId) : List Nat :=
  (e.ready.filter fun entry => entry.1 = id).map Prod.snd

lemma pending_settle (e : Engine) (id other : ContextId) (m : Moved) :
    pending (e.settle id m) other =
      pending e other ++ (if other = id then m.ready else []) := by
  simp only [pending, settle_ready, List.filter_append, List.map_append]
  congr 1
  split
  · next h =>
    subst h
    rw [List.filter_eq_self.mpr (by simp), List.map_map]
    exact List.map_id _
  · next h =>
    rw [List.filter_eq_nil_iff.mpr, List.map_nil]
    intro entry hentry
    obtain ⟨k, -, rfl⟩ := List.mem_map.mp hentry
    simpa using Ne.symm h

/-- The engine with a run just begun, before its trigger lets it go. -/
def begun (env : Env) (e : Engine) (flow : RuleId) (loaded : Loaded) (firing : Firing)
    (now : Timestamp) : Engine :=
  { e with
    minted := e.minted + 1,
    runs := e.runs.insert (env.runId e.minted now)
      (Engine.newRun (env.runId e.minted now) flow loaded firing now),
    ledger := { e.ledger with
      started := e.ledger.started ++ [(firing.serial, flow, env.runId e.minted now)],
      bare := e.ledger.bare ++ (if (loaded.flow.wiresFrom firing.trigger .out).isEmpty then
        [env.runId e.minted now] else []) } }

def launched (id : ContextId) (flow : RuleId) (loaded : Loaded) (firing : Firing)
    (now : Timestamp) : Moved :=
  (Engine.newRun id flow loaded firing now).leave firing.trigger .out

lemma launched_header (id : ContextId) (flow : RuleId) (loaded : Loaded) (firing : Firing)
    (now : Timestamp) : header (launched id flow loaded firing now).run.record =
      header (Engine.newRun id flow loaded firing now).record :=
  leave_header _ _ _

lemma startRun_eq (env : Env) {e : Engine} {flow : RuleId} {loaded : Loaded}
    (hflow : e.flows[flow]? = some loaded) (firing : Firing) (now : Timestamp) :
    e.startRun env flow firing now = (env.runId e.minted now,
      (begun env e flow loaded firing now).settle (env.runId e.minted now)
        (launched (env.runId e.minted now) flow loaded firing now)) := by
  unfold Engine.startRun
  simp only [hflow]
  have hrun : (begun env e flow loaded firing now).runs[env.runId e.minted now]? =
      some (Engine.newRun (env.runId e.minted now) flow loaded firing now) := by
    rw [begun, Map.get_insert, if_pos rfl]
  change (_, (begun env e flow loaded firing now).withRun _ _) = _
  rw [Engine.withRun, hrun]
  rfl

lemma startRun_of_none (env : Env) {e : Engine} {flow : RuleId} (hflow : e.flows[flow]? = none)
    (firing : Firing) (now : Timestamp) :
    e.startRun env flow firing now =
      (env.runId e.minted now, { e with minted := e.minted + 1 }) := by
  unfold Engine.startRun
  simp only [hflow]

def core (loaded : Loaded) : Loaded := { loaded with holds := ∅ }

/-- Only things no run depends on have changed, and near-misses were noted that are of no firing
dropped. A flow that isn't armed has started no hold. -/
structure Quiet (e e' : Engine) : Prop where
  runs : e'.runs = e.runs
  ready : e'.ready = e.ready
  flows : ∀ id : RuleId, (e'.flows[id]?).map core = (e.flows[id]?).map core
  idle : ∀ {id : RuleId} {loaded loaded' : Loaded}, e.flows[id]? = some loaded →
    e'.flows[id]? = some loaded' → loaded'.armed ≠ .armed → loaded.holds = ∅ → loaded'.holds = ∅
  effects : ∃ misses : List NearMiss, (∀ miss ∈ misses, miss.kind ≠ .dropped) ∧
    e'.effects = e.effects ++ misses.map .nearMiss
  minted : e'.minted = e.minted
  ledger : ∃ (bare stillborn : List ContextId) (overtaken : List Timestamp),
    e'.ledger = { e.ledger with
      bare, stillborn := e.ledger.stillborn ++ stillborn,
      overtaken := e.ledger.overtaken ++ overtaken }

lemma Quiet.refl (e : Engine) : Quiet e e :=
  ⟨rfl, rfl, fun _ => rfl, fun h h' _ hnone => by rw [h, Option.some.injEq] at h'; exact h' ▸ hnone,
    ⟨[], by simp⟩, rfl, e.ledger.bare, [], [], by simp⟩

lemma Quiet.trans {e e' e'' : Engine} (h : Quiet e e') (h' : Quiet e' e'') : Quiet e e'' := by
  obtain ⟨misses, hkinds, hmisses⟩ := h.effects
  obtain ⟨misses', hkinds', hmisses'⟩ := h'.effects
  obtain ⟨bare, stillborn, overtaken, hledger⟩ := h.ledger
  obtain ⟨bare', stillborn', overtaken', hledger'⟩ := h'.ledger
  refine ⟨h'.runs.trans h.runs, h'.ready.trans h.ready, fun id => (h'.flows id).trans (h.flows id),
    fun {id loaded loaded'} hloaded hloaded' harmed hnone => ?_,
    ⟨misses ++ misses', fun miss hmiss => ?_, ?_⟩, h'.minted.trans h.minted, bare',
    stillborn ++ stillborn', overtaken ++ overtaken', ?_⟩
  · have hcore := h'.flows id
    rw [hloaded', Option.map_some] at hcore
    obtain ⟨between, hbetween, hsame⟩ := Option.map_eq_some_iff.mp hcore.symm
    have hbetween' := congrArg Loaded.armed hsame
    have hbarmed : between.armed = loaded'.armed := hbetween'
    exact h'.idle hbetween hloaded' harmed (h.idle hloaded hbetween (hbarmed ▸ harmed) hnone)
  · exact (List.mem_append.mp hmiss).elim (hkinds miss) (hkinds' miss)
  · rw [hmisses', hmisses, List.map_append, List.append_assoc]
  · rw [hledger', hledger]
    simp only [List.append_assoc]

/-- One turn of the engine at a moment, where the flows it is handed are among `A`, and it is only
stopped if `H`. -/
inductive Turn (env : Env) (A : Arm → Prop) (H : Prop) (now : Timestamp) : Engine → Engine → Prop
  | quiet {e e' : Engine} (h : Quiet e e') : Turn env A H now e e'
  | move {e : Engine} {id : ContextId} {run : Run} {m : Moved} (going : e.runs[id]? = some run)
      (goes : Goes now none run m) : Turn env A H now e (e.settle id m)
  | step {e : Engine} {id : ContextId} {k : Nat} {rest : List (ContextId × Nat)} {run : Run}
      {m : Moved} (first : e.ready = (id, k) :: rest) (going : e.runs[id]? = some run)
      (settles : Settles now (some k) run k m) :
      Turn env A H now e ({ e with ready := rest }.settle id m)
  /-- The first ready token is of a run that has ended. -/
  | stale {e : Engine} {id : ContextId} {k : Nat} {rest : List (ContextId × Nat)}
      (first : e.ready = (id, k) :: rest) (ended : e.runs[id]? = none) :
      Turn env A H now e { e with ready := rest }
  | finish {e : Engine} {id : ContextId} {run : Run} {outcome : Option RunOutcome}
      (going : e.runs[id]? = some run) (ends : outcome = none → run.tokens.isEmpty)
      (lets : Engine.letsNextStart outcome = true) :
      Turn env A H now e (e.finish env id outcome now)
  | halt {e : Engine} {id : ContextId} {run : Run} (stops : H) (going : e.runs[id]? = some run) :
      Turn env A H now e (e.finish env id (some (.aborted .shutdown)) now)
  | fire {e : Engine} {flow : RuleId} (firing : Firing)
      (armed : ∀ loaded : Loaded, e.flows[flow]? = some loaded → loaded.armed = .armed) :
      Turn env A H now e (e.fireNow env flow firing now).2
  | replace {e : Engine} {arms : List Arm} (known : ∀ arm ∈ arms, A arm) :
      Turn env A H now e (e.replaceFlows env arms now)
  | take {e : Engine} : Turn env A H now e e.takeEffects.2

/-- Any number of turns at one moment. -/
def TurnsAt (env : Env) (A : Arm → Prop) (H : Prop) (now : Timestamp) : Engine → Engine → Prop :=
  Relation.ReflTransGen (Turn env A H now)

/-- Any number of turns, whenever. -/
def Turns (env : Env) (A : Arm → Prop) (H : Prop) : Engine → Engine → Prop :=
  Relation.ReflTransGen fun e e' => ∃ now : Timestamp, Turn env A H now e e'

lemma TurnsAt.turns {env : Env} {A : Arm → Prop} {H : Prop} {now : Timestamp} {e e' : Engine}
    (h : TurnsAt env A H now e e') : Turns env A H e e' :=
  Relation.ReflTransGen.mono (fun _ _ ht => ⟨now, ht⟩) _ _ h

def Known (env : Env) (A : Arm → Prop) (id : RuleId) (loaded : Loaded) : Prop :=
  ∃ arm : Arm, A arm ∧ loaded.flow = arm.flow ∧ arm.flow.id = id ∧
    loaded.version = arm.flow.version env

/-- A property of a run of known flows, given its id, the joins that were doubled so far and the
tokens of it that are ready, which whatever the engine has a run do keeps. -/
structure Lifts (env : Env) (A : Arm → Prop)
    (J : ContextId → List NodeId → Run → List Nat → Prop) : Prop where
  more : ∀ {id : ContextId} {doubled : List NodeId} {run : Run} {ready : List Nat}
    (others : List NodeId), J id doubled run ready → J id (doubled ++ others) run ready
  start : ∀ {flow : RuleId} {loaded : Loaded}, Known env A flow loaded →
    ∀ (id : ContextId) (firing : Firing) (now : Timestamp) (doubled : List NodeId)
      (ready : List Nat),
      J id doubled (launched id flow loaded firing now).run
        (ready ++ (launched id flow loaded firing now).ready)
  move : ∀ {id : ContextId} {doubled : List NodeId} {run : Run} {ready : List Nat}
    {now : Timestamp} {m : Moved}, J id doubled run ready → Goes now none run m →
    J id (doubled ++ m.doubled) m.run (ready ++ m.ready)
  step : ∀ {id : ContextId} {doubled : List NodeId} {run : Run} {ready : List Nat} {k : Nat}
    {now : Timestamp} {m : Moved}, J id doubled run (k :: ready) → Settles now (some k) run k m →
    J id (doubled ++ m.doubled) m.run (ready ++ m.ready)

/-- A property of runs holds of every run the engine has, and of the run of every record it has
given out, as that was when it ended. -/
structure Holds (env : Env) (A : Arm → Prop)
    (J : ContextId → List NodeId → Run → List Nat → Prop) (e : Engine) : Prop where
  loaded : ∀ {flow : RuleId} {loaded : Loaded}, e.flows[flow]? = some loaded →
    Known env A flow loaded
  runs : ∀ {id : ContextId} {run : Run}, e.runs[id]? = some run →
    J id e.ledger.doubled run (pending e id)
  ended : ∀ {record : RunRecord}, .finished record ∈ e.ledger.taken ++ e.effects →
    ∃ (id : ContextId) (doubled : List NodeId) (run : Run) (ready : List Nat)
      (outcome : Option RunOutcome) (now : Timestamp), J id doubled run ready ∧
      record = run.finalRecord outcome now ∧ (outcome = none → run.tokens.isEmpty)

end Irori.Proofs
