import Irori.Home.Registry

/-!
# Runs of the home

Every operation there is on a home, and what a home can come to by them.
-/

namespace Irori.Core

variable {κ σ : Type} [DecidableEq κ] [DecidableEq σ]

inductive HomeOp (κ σ : Type)
  | describeDevice (protocol : ProtocolId) (description : DeviceDescription)
  | describeEntity (protocol : ProtocolId) (listed : List EntityKind)
      (description : EntityDescription κ) (stamp : Stamp)
  | removeDevice (protocol : ProtocolId) (uniqueId : UniqueId)
  | removeEntity (protocol : ProtocolId) (uniqueId : UniqueId)
  | reportState (protocol : ProtocolId) (report : StateReport σ) (stamp : Stamp)
  | setAvailability (protocol : ProtocolId) (target : AvailabilityTarget)
      (availability : Availability) (stamp : Stamp)
  | markUnavailable (protocol : ProtocolId) (stamp : Stamp)
  | applySettings (settings : Settings) (stamp : Stamp)
  | forgetDevice (id : DeviceId)
  | removeProtocol (protocol : ProtocolId)
  | recordCommand (id : EntityId) (asksFor : Option Typed)
  | forgetCommand (id : EntityId)
  | recordCall (protocol : ProtocolId) (contextId : ContextId) (now : Timestamp)
  | forgetCall (protocol : ProtocolId) (contextId : ContextId)
  | skipUpdate (id : EntityId) (context : Context) (stamp : Stamp)
  | clearSkippedUpdate (id : EntityId) (context : Context) (stamp : Stamp)
  | beginUpdate (id : EntityId) (stamp : Stamp)
  | failUpdate (id : EntityId) (why : String) (stamp : Stamp)
  | skipsToStore
  | restoreSkips (skips : List Skip)

/-- The protocol an operation comes from, when it is one that protocols ask for. -/
def HomeOp.sender : HomeOp κ σ → Option ProtocolId
  | .describeDevice protocol _ | .describeEntity protocol _ _ _ | .removeDevice protocol _
  | .removeEntity protocol _ | .reportState protocol _ _ | .setAvailability protocol _ _ _ =>
    some protocol
  | _ => none

namespace Home

/-- What an operation answers, and the home after it. Nothing where it panics. -/
def perform (kinds : Kinds κ σ) (home : Home κ σ) : HomeOp κ σ → Outcome κ σ
  | .describeDevice protocol description => home.describeDevice kinds protocol description
  | .describeEntity protocol listed description stamp =>
    home.describeEntity kinds protocol listed description stamp
  | .removeDevice protocol uniqueId => some (home.removeDevice protocol uniqueId)
  | .removeEntity protocol uniqueId => some (home.removeEntity protocol uniqueId)
  | .reportState protocol report stamp => home.reportState kinds protocol report stamp
  | .setAvailability protocol target availability stamp =>
    some (home.setAvailability protocol target availability stamp)
  | .markUnavailable protocol stamp => told (home.markUnavailable protocol stamp)
  | .applySettings settings stamp => (home.applySettings kinds settings stamp).bind told
  | .forgetDevice id => some (home.forgetDevice id)
  | .removeProtocol protocol => told (home.removeProtocol protocol)
  | .recordCommand id asksFor => told ([], home.recordCommand id asksFor)
  | .forgetCommand id => told ([], home.forgetCommand id)
  | .recordCall protocol contextId now => told ([], home.recordCall protocol contextId now)
  | .forgetCall protocol contextId => told ([], home.forgetCall protocol contextId)
  | .skipUpdate id context stamp => some (home.skipUpdate id context stamp)
  | .clearSkippedUpdate id context stamp => told (home.clearSkippedUpdate id context stamp)
  | .beginUpdate id stamp => told (home.beginUpdate id stamp)
  | .failUpdate id why stamp => told (home.failUpdate id why stamp)
  | .skipsToStore => told ([], home.skipsToStore.2)
  | .restoreSkips skips => told ([], home.restoreSkips skips)
where
  told (changes : Changes κ σ) : Outcome κ σ := some (.ok changes.1, changes.2)

end Home

/-- A home after operations, each of which a condition on the home before it allowed. -/
inductive ComesTo (kinds : Kinds κ σ) (Allowed : Home κ σ → HomeOp κ σ → Prop) :
    Home κ σ → Prop
  | new : ComesTo kinds Allowed Home.new
  | step {home next : Home κ σ} {result : Except Rejected (List (Event κ σ))}
      (op : HomeOp κ σ) (before : ComesTo kinds Allowed home) (allowed : Allowed home op)
      (performed : home.perform kinds op = some (result, next)) : ComesTo kinds Allowed next

abbrev Reachable (kinds : Kinds κ σ) : Home κ σ → Prop := ComesTo kinds fun _ _ => True

def Home.performAll (kinds : Kinds κ σ) : List (HomeOp κ σ) → Home κ σ → Option (Home κ σ)
  | [], home => some home
  | op :: ops, home =>
    match home.perform kinds op with
    | none => none
    | some (_, next) => performAll kinds ops next

lemma ComesTo.performAll {kinds : Kinds κ σ} {Allowed : Home κ σ → HomeOp κ σ → Prop}
    (hall : ∀ (home : Home κ σ) (op : HomeOp κ σ), Allowed home op) {ops : List (HomeOp κ σ)}
    {home next : Home κ σ} (h : ComesTo kinds Allowed home)
    (hnext : Home.performAll kinds ops home = some next) : ComesTo kinds Allowed next := by
  induction ops generalizing home with
  | nil =>
    rw [Home.performAll, Option.some.injEq] at hnext
    exact hnext ▸ h
  | cons op ops ih =>
    rw [Home.performAll] at hnext
    split at hnext
    · cases hnext
    · next result mid hmid => exact ih (h.step op (hall home op) hmid) hnext

end Irori.Core
