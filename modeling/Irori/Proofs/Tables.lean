import Irori.Flows.Engine

/-!
# What the small functions of a run change

Each changes one part of a run. These are the parts it leaves alone, and what it does to the
table of tokens and to the steps.
-/

namespace Irori.Proofs

open Irori

def header (record : RunRecord) : RunRecord := { record with steps := [], endedAt := [] }

section Steps

variable (r : Run) (token : Nat) (f : Step → Step)

@[simp] lemma withStep_flow : (r.withStep token f).flow = r.flow := by
  unfold Run.withStep; split <;> rfl

@[simp] lemma withStep_tokens : (r.withStep token f).tokens = r.tokens := by
  unfold Run.withStep; split <;> rfl

@[simp] lemma withStep_nextToken : (r.withStep token f).nextToken = r.nextToken := by
  unfold Run.withStep; split <;> rfl

@[simp] lemma withStep_vars : (r.withStep token f).vars = r.vars := by
  unfold Run.withStep; split <;> rfl

@[simp] lemma withStep_joins : (r.withStep token f).joins = r.joins := by
  unfold Run.withStep; split <;> rfl

@[simp] lemma withStep_header : header (r.withStep token f).record = header r.record := by
  unfold Run.withStep; split <;> rfl

@[simp] lemma withStep_stopped : (r.withStep token f).stopped = r.stopped := by
  unfold Run.withStep; split <;> rfl

@[simp] lemma withStep_length :
    (r.withStep token f).record.steps.length = r.record.steps.length := by
  unfold Run.withStep; split <;> simp

end Steps

section Tokens

variable (r : Run) (token : Nat) (doing : Doing)

@[simp] lemma setDoing_flow : (r.setDoing token doing).flow = r.flow := by
  unfold Run.setDoing; split <;> rfl

@[simp] lemma setDoing_nextToken : (r.setDoing token doing).nextToken = r.nextToken := by
  unfold Run.setDoing; split <;> rfl

@[simp] lemma setDoing_vars : (r.setDoing token doing).vars = r.vars := by
  unfold Run.setDoing; split <;> rfl

@[simp] lemma setDoing_joins : (r.setDoing token doing).joins = r.joins := by
  unfold Run.setDoing; split <;> rfl

@[simp] lemma setDoing_record : (r.setDoing token doing).record = r.record := by
  unfold Run.setDoing; split <;> rfl

lemma setDoing_tokens (k : Nat) :
    (r.setDoing token doing).tokens[k]? =
      if token = k then (r.tokens[k]?).map fun t => { t with doing } else r.tokens[k]? := by
  unfold Run.setDoing
  split
  · next h =>
    by_cases hk : token = k
    · subst hk; simp [h]
    · simp [hk]
  · next t h =>
    by_cases hk : token = k
    · subst hk; simp [h]
    · simp [Map.get_insert, hk]

@[simp] lemma removeToken_flow : (r.removeToken token).flow = r.flow := rfl
@[simp] lemma removeToken_nextToken : (r.removeToken token).nextToken = r.nextToken := rfl
@[simp] lemma removeToken_vars : (r.removeToken token).vars = r.vars := rfl
@[simp] lemma removeToken_joins : (r.removeToken token).joins = r.joins := rfl
@[simp] lemma removeToken_record : (r.removeToken token).record = r.record := rfl
@[simp] lemma removeToken_tokens : (r.removeToken token).tokens = r.tokens.erase token := rfl

end Tokens

section Others

variable (r : Run) (node : NodeId) (port : Option Port) (message : String) (join : JoinState)

@[simp] lemma addEnding_flow : (r.addEnding node port).flow = r.flow := rfl
@[simp] lemma addEnding_tokens : (r.addEnding node port).tokens = r.tokens := rfl
@[simp] lemma addEnding_nextToken : (r.addEnding node port).nextToken = r.nextToken := rfl
@[simp] lemma addEnding_vars : (r.addEnding node port).vars = r.vars := rfl
@[simp] lemma addEnding_joins : (r.addEnding node port).joins = r.joins := rfl
@[simp] lemma addEnding_steps : (r.addEnding node port).record.steps = r.record.steps := rfl
@[simp] lemma addEnding_header : header (r.addEnding node port).record = header r.record := rfl

@[simp] lemma setError_flow : (r.setError node message).flow = r.flow := rfl
@[simp] lemma setError_tokens : (r.setError node message).tokens = r.tokens := rfl
@[simp] lemma setError_nextToken : (r.setError node message).nextToken = r.nextToken := rfl
@[simp] lemma setError_vars : (r.setError node message).vars = r.vars := rfl
@[simp] lemma setError_joins : (r.setError node message).joins = r.joins := rfl
@[simp] lemma setError_record : (r.setError node message).record = r.record := rfl

@[simp] lemma setJoin_flow : (r.setJoin node join).flow = r.flow := rfl
@[simp] lemma setJoin_tokens : (r.setJoin node join).tokens = r.tokens := rfl
@[simp] lemma setJoin_nextToken : (r.setJoin node join).nextToken = r.nextToken := rfl
@[simp] lemma setJoin_vars : (r.setJoin node join).vars = r.vars := rfl
@[simp] lemma setJoin_record : (r.setJoin node join).record = r.record := rfl

lemma setJoin_joins (k : NodeId) :
    (r.setJoin node join).joins[k]? = if node = k then some join else r.joins[k]? := by
  simp [Run.setJoin, Map.get_insert]

lemma setJoin_joinAt (k : NodeId) :
    (r.setJoin node join).joinAt k = if node = k then join else r.joinAt k := by
  unfold Run.joinAt
  rw [setJoin_joins]
  split <;> rfl

end Others

def onWire (wire : Wire) : Token := ⟨wire.target, some wire, none, .ready⟩

section Spawning

variable (r : Run)

@[simp] lemma spawn_flow (wire : Wire) : (r.spawn wire).flow = r.flow := rfl
@[simp] lemma spawn_vars (wire : Wire) : (r.spawn wire).vars = r.vars := rfl
@[simp] lemma spawn_joins (wire : Wire) : (r.spawn wire).joins = r.joins := rfl
@[simp] lemma spawn_record (wire : Wire) : (r.spawn wire).record = r.record := rfl
@[simp] lemma spawn_nextToken (wire : Wire) : (r.spawn wire).nextToken = r.nextToken + 1 := rfl

lemma spawn_tokens (wire : Wire) :
    (r.spawn wire).tokens = r.tokens.insert r.nextToken (onWire wire) := rfl

lemma foldl_spawn_parts (wires : List Wire) :
    (wires.foldl Run.spawn r).flow = r.flow ∧ (wires.foldl Run.spawn r).vars = r.vars ∧
      (wires.foldl Run.spawn r).joins = r.joins ∧
      (wires.foldl Run.spawn r).record = r.record ∧
      (wires.foldl Run.spawn r).nextToken = r.nextToken + wires.length := by
  induction wires generalizing r with
  | nil => simp
  | cons wire wires ih =>
    obtain ⟨hflow, hvars, hjoins, hrecord, hnext⟩ := ih (r.spawn wire)
    refine ⟨hflow, hvars, hjoins, hrecord, ?_⟩
    rw [List.foldl_cons, hnext, spawn_nextToken, List.length_cons]
    omega

lemma foldl_spawn_tokens (wires : List Wire) (k : Nat) :
    (wires.foldl Run.spawn r).tokens[k]? =
      if r.nextToken ≤ k ∧ k < r.nextToken + wires.length then
        (wires[k - r.nextToken]?).map onWire
      else r.tokens[k]? := by
  induction wires generalizing r with
  | nil => simp
  | cons wire wires ih =>
    rw [List.foldl_cons, ih, spawn_nextToken, spawn_tokens, Map.get_insert]
    rcases Nat.lt_trichotomy k r.nextToken with hk | hk | hk
    · rw [if_neg (by omega), if_neg (by omega), if_neg (by simp; omega)]
    · subst hk
      rw [if_neg (by omega), if_pos rfl, if_pos (by simp)]
      simp
    · by_cases hend : k < r.nextToken + 1 + wires.length
      · rw [if_pos (by omega), if_pos (by simp; omega)]
        obtain ⟨j, hj⟩ : ∃ j : ℕ, k - r.nextToken = j + 1 := ⟨k - r.nextToken - 1, by omega⟩
        rw [hj, show k - (r.nextToken + 1) = j by omega]
        simp
      · rw [if_neg (by omega), if_neg (by omega), if_neg (by simp; omega)]

variable (node : NodeId) (port : Port)

@[simp] lemma leave_flow : (r.leave node port).run.flow = r.flow := by
  unfold Run.leave
  dsimp only
  split
  · rfl
  · exact (foldl_spawn_parts r _).1

@[simp] lemma leave_vars : (r.leave node port).run.vars = r.vars := by
  unfold Run.leave
  dsimp only
  split
  · rfl
  · exact (foldl_spawn_parts r _).2.1

@[simp] lemma leave_joins : (r.leave node port).run.joins = r.joins := by
  unfold Run.leave
  dsimp only
  split
  · rfl
  · exact (foldl_spawn_parts r _).2.2.1

@[simp] lemma leave_steps : (r.leave node port).run.record.steps = r.record.steps := by
  unfold Run.leave
  dsimp only
  split
  · rfl
  · exact congrArg RunRecord.steps (foldl_spawn_parts r _).2.2.2.1

@[simp] lemma leave_header : header (r.leave node port).run.record = header r.record := by
  unfold Run.leave
  dsimp only
  split
  · rfl
  · exact congrArg header (foldl_spawn_parts r _).2.2.2.1

lemma leave_nextToken :
    (r.leave node port).run.nextToken = r.nextToken + (r.flow.wiresFrom node port).length := by
  unfold Run.leave
  dsimp only
  split
  · next h => simp [List.isEmpty_iff.mp h]
  · exact (foldl_spawn_parts r _).2.2.2.2

lemma leave_ready :
    (r.leave node port).ready =
      List.range' r.nextToken (r.flow.wiresFrom node port).length := by
  unfold Run.leave
  dsimp only
  split
  · next h => simp [List.isEmpty_iff.mp h]
  · rfl

lemma leave_tokens (k : Nat) :
    (r.leave node port).run.tokens[k]? =
      if k ∈ (r.leave node port).ready then
        ((r.flow.wiresFrom node port)[k - r.nextToken]?).map onWire
      else r.tokens[k]? := by
  have hmem : k ∈ (r.leave node port).ready ↔
      r.nextToken ≤ k ∧ k < r.nextToken + (r.flow.wiresFrom node port).length := by
    rw [leave_ready]
    simp
  simp only [hmem]
  unfold Run.leave
  dsimp only
  split
  · next h => rw [List.isEmpty_iff.mp h]; rw [if_neg (by simp)]; rfl
  · exact foldl_spawn_tokens r _ k

lemma leave_asks :
    (r.leave node port).timers = [] ∧ (r.leave node port).effects = [] ∧
      (r.leave node port).calls = 0 ∧ (r.leave node port).evaluated = [] ∧
      (r.leave node port).doubled = [] := by
  unfold Run.leave
  dsimp only
  split <;> exact ⟨rfl, rfl, rfl, rfl, rfl⟩

end Spawning

section Opening

variable {r : Run} {token : Nat} {t : Token} (now : Timestamp)

def stepOf (seq token : Nat) (t : Token) (now : Timestamp) : Step :=
  { seq, node := t.node, token, via := t.via, at_ := now, finishedAt := none, port := none,
    reads := [], note := none, call := none }

lemma openStep_eq (h : r.tokens[token]? = some t) :
    r.openStep token now =
      { r with
        record := { r.record with
          steps := r.record.steps ++ [stepOf r.record.steps.length token t now] },
        tokens := r.tokens.insert token { t with step := some r.record.steps.length } } := by
  simp only [Run.openStep, h]
  rfl

end Opening

end Irori.Proofs
