import Irori.Types
import Irori.Lib.Map

/-!
# Helpers that read each other

Which entities a computed helper reads, and the search that refuses helpers reading each other in
a ring.
-/

namespace Irori.Helpers

inductive Spec
  | group (members : List EntityId)
  | combined (sources : List EntityId)
  | switchAs (switch : EntityId)
  | threshold (source : EntityId)
  | trend (source : EntityId)
  | meter (source : EntityId)
  | integral (source : EntityId)
  | derivative (source : EntityId)
  | statistics (source : EntityId)
  | history (source : EntityId)

def Spec.sources : Spec → List EntityId
  | group members => members
  | combined sources => sources
  | switchAs source | threshold source | trend source | meter source | integral source
  | derivative source | statistics source | history source => [source]

inductive Role
  | value | press | happens | timer | schedule
  | computed (spec : Spec)

structure Made where
  kind : EntityKind
  suggestedObjectId : Option ObjectId
  role : Role

namespace Made

/-- The entity id it asks for: `switch.guests_over`. -/
def entityId (one : Made) : String :=
  one.kind.domain ++ "." ++ (one.suggestedObjectId.map Slug.text).getD ""

def read (one : Made) : Option (String × List String) :=
  match one.role with
  | .computed spec => some (one.entityId, spec.sources.map EntityId.text)
  | _ => none

end Made

/-- Follows what is read from `here` on; `path` led there. Answers the first ring it comes to, and
`none` where the fuel runs out. -/
def visit (reads : Map String (List String)) : Nat → String → List String →
    Option (Option (List String))
  | 0, _, _ => none
  | fuel + 1, here, path =>
    match path.idxOf? here with
    | some from_ => some (some (path.drop from_ ++ [here]))
    | none =>
      ((reads[here]?).getD []).findSomeM? fun next => visit reads fuel next (path ++ [here])

/-- Helpers that read each other in a ring would each wait on the other for ever: refused, naming
the ring. -/
def noLoops (made : List Made) (fuel : Nat) : Option (Except String Unit) :=
  let reads : Map String (List String) := Std.ExtTreeMap.ofList (made.filterMap Made.read) compare
  (reads.keys.findSomeM? fun start => visit reads fuel start []).map fun found =>
    match found with
    | some ring =>
      .error ("these helpers read each other in a ring: " ++ String.intercalate " → " ring)
    | none => .ok ()

end Irori.Helpers
