import Irori.Flows.Engine

/-!
# The engine as it is driven

Its operations as whoever drives it calls them, and the states any sequence of them comes to.
-/

namespace Irori

inductive Op
  | setFlows (arms : List Arm) (now : Timestamp)
  | setPlace (place : Option Place) (now : Timestamp)
  | loadStates (states : List EntityState)
  | start (now : Timestamp)
  | fire (flow : RuleId) (trigger : NodeId) (test : Option TestKind) (by_ : Option UserId)
      (now : Timestamp)
  | stateChanged (old : Option EntityState) (new : EntityState) (now : Timestamp)
  | resync (states : List EntityState) (now : Timestamp)
  | callFinished (callId : Nat) (result : Except String Unit) (now : Timestamp)
  | cancel (run : ContextId) (now : Timestamp)
  | advance (now : Timestamp)
  | takeEffects
  | shutdown (now : Timestamp)

namespace Op

def time : Op → Option Timestamp
  | setFlows _ now => some now
  | setPlace _ now => some now
  | loadStates _ => none
  | start now => some now
  | fire _ _ _ _ now => some now
  | stateChanged _ _ now => some now
  | resync _ now => some now
  | callFinished _ _ now => some now
  | cancel _ now => some now
  | advance now => some now
  | takeEffects => none
  | shutdown now => some now

def isShutdown : Op → Bool
  | shutdown _ => true
  | _ => false

def perform (env : Env) (op : Op) (e : Engine) (fuel : Nat) : Option Engine :=
  match op with
  | setFlows arms now => e.setFlows env arms now fuel
  | setPlace place now => e.setPlace env place now fuel
  | loadStates states => some (e.loadStates states)
  | start now => e.start env now fuel
  | fire flow trigger test by_ now => (e.fireBy env flow trigger test by_ now fuel).map Prod.snd
  | stateChanged old new now => e.stateChanged env old new now fuel
  | resync states now => e.resync env states now fuel
  | callFinished callId result now => e.callFinished env callId result now fuel
  | cancel run now => (e.cancel env run now fuel).map Prod.snd
  | advance now => e.advance env now fuel
  | takeEffects => some e.takeEffects.2
  | shutdown now => some (e.shutdown env now)

end Op

/-- The engine's states after the operations `ops`, in that order, each having returned. -/
inductive Reaches (env : Env) : List Op → Engine → Prop
  | new (dry : Bool) : Reaches env [] (Engine.new dry)
  | perform {ops : List Op} {e e' : Engine} {op : Op} {fuel : Nat} (before : Reaches env ops e)
      (returned : op.perform env e fuel = some e') : Reaches env (ops ++ [op]) e'

/-- The engine's states after the operations `ops`, where each was called in a state that `C` allows
it in. -/
inductive ReachesWith (env : Env) (C : Op → Engine → Prop) : List Op → Engine → Prop
  | new (dry : Bool) : ReachesWith env C [] (Engine.new dry)
  | perform {ops : List Op} {e e' : Engine} {op : Op} {fuel : Nat}
      (before : ReachesWith env C ops e) (allowed : C op e)
      (returned : op.perform env e fuel = some e') : ReachesWith env C (ops ++ [op]) e'

lemma ReachesWith.reaches {env : Env} {C : Op → Engine → Prop} {ops : List Op} {e : Engine}
    (h : ReachesWith env C ops e) : Reaches env ops e := by
  induction h with
  | new dry => exact .new dry
  | perform _ _ returned ih => exact ih.perform returned

def Op.performAll (env : Env) (fuel : Nat) (ops : List Op) (e : Engine) : Option Engine :=
  ops.foldlM (fun e op => op.perform env e fuel) e

def Engine.records (e : Engine) : List RunRecord :=
  (e.ledger.taken ++ e.effects).filterMap fun effect =>
    match effect with
    | .finished record => some record
    | _ => none

/-- The first `count` run ids that are asked for are different, whenever that is. -/
def FreshIds (env : Env) (count : Nat) : Prop :=
  ∀ (m n : Nat) (at_ now : Timestamp), m < count → n < count →
    env.runId m at_ = env.runId n now → m = n

end Irori
