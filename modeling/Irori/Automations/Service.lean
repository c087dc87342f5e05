import Irori.Automations.Store
import Irori.Flows.Engine

/-!
# The running extension

What it knows of the home and of the people who have flows, which flows it hands to the engine, and
the flows it turns off or hands over by itself. Of the engine there is what it says is armed; the
warnings a flow that runs can have, and what is told to the log and the page, are left out.
-/

namespace Irori.Automations

/-- Each `old` that is found from the left on is replaced; `skip` of the characters are of one that
was. -/
def replaceIn (old new : List Char) : Nat → List Char → List Char
  | _, [] => []
  | skip + 1, _ :: rest => replaceIn old new skip rest
  | 0, c :: rest =>
    if old.isPrefixOf (c :: rest) then new ++ replaceIn old new (old.length - 1) rest
    else c :: replaceIn old new 0 rest

def replaceAll (old new text : String) : String :=
  String.ofList (replaceIn old.toList new.toList 0 text.toList)

structure PersonReach where
  here : Bool
  name : String
  owner : Bool
  /-- The entities they can see; `none` is the whole home. -/
  entities : Option (List EntityId)
  deriving DecidableEq

structure Standing where
  told : PersonReach
  /-- Which reading of the home it was applied to. -/
  homeWas : Nat
  registry : RegistryView

def Standing.of (reach : PersonReach) (home : RegistryView) (homeWas : Nat) : Standing where
  told := reach
  homeWas := homeWas
  registry :=
    match reach.entities with
    | none => home
    | some seen => { home with entity := fun id => if seen.contains id then home.entity id else none }

structure View where
  /-- Whether the flow's owner may change how the home is set up. -/
  owner : Bool
  registry : RegistryView
  /-- The entities they have; `none` is the whole home. -/
  seen : Option (List EntityId)

structure Service where
  store : Store
  registry : RegistryView
  homeWas : Nat
  /-- Where each person who has a flow, or has asked, stands now. -/
  people : Map UserId Standing
  started : Bool
  armed : Map RuleId Armed

namespace Service

variable (env : Env) (service : Service)

/-- What a flow of `owner`'s is checked against, or why it can't be told. -/
def view (owner : Option UserId) : Except String View :=
  match owner with
  | none => .ok ⟨true, service.registry, none⟩
  | some user =>
    match service.people[user]? with
    | some standing =>
      if standing.told.here then
        .ok ⟨standing.told.owner, standing.registry, standing.told.entities⟩
      else
        .error (user.text ++ " is not in the home any more, so what their flow may touch can't be " ++
          "told")
    | none => .error "what the owner of this flow can reach could not be told yet"

def worded (problem : Problem) : Problem :=
  if "no such entity".toList <:+: problem.message.toList then
    { problem with
      message := replaceAll " — check the entity id" " in your rooms — check the entity id"
        problem.message }
  else problem

def problems (flow : Flow) : List Problem :=
  match service.view flow.owner with
  | .error why => [errorProblem none none why]
  | .ok view =>
    let problems := flow.checkFor env view.registry view.owner
    if flow.owner.isSome then problems.map worded else problems

def wrongAnyway (flow : Flow) : Bool :=
  (flow.checkFor env service.registry true).any Problem.isError

def hasLost (flow : Flow) : Bool :=
  flow.enabled && flow.owner.isSome && (service.view flow.owner).toOption.isSome &&
    (service.problems env flow).any Problem.isError && !service.wrongAnyway env flow

/-- Keeps what the core answers of a person. When it can't say, nothing is known of them. -/
def learn (user : UserId) : Option PersonReach → Service
  | some reach =>
    if (service.people[user]?).any fun known =>
        known.told = reach && known.homeWas = service.homeWas then
      service
    else
      { service with
        people := service.people.insert user (.of reach service.registry service.homeWas) }
  | none => { service with people := service.people.erase user }

def asksAbout : List UserId :=
  ((Map.vals service.store.flows).filterMap Flow.owner ++ service.people.keys).dedup

def learnAll (answers : UserId → Option PersonReach) : Service :=
  service.asksAbout.foldl (fun service user => service.learn user (answers user)) service

def isGone (flow : Flow) : Bool :=
  (flow.owner.bind (service.people[·]?)).any fun standing => !standing.told.here

def gone : List RuleId :=
  service.store.flows.toList.filterMap fun (id, flow) =>
    if service.isGone flow then some id else none

/-- The flows to turn off: what is wrong with them would not be, were the owner the home's. One that
was running, or any at all when starting. -/
def toTurnOff : List Flow :=
  (Map.vals service.store.flows).filter fun flow =>
    service.hasLost env flow && (!service.started || service.armed[flow.id]? = some .armed)

end Service

structure World where
  disk : Disk
  service : Service

/-- How the saves an operation makes by itself go, flow by flow. One that isn't here can't even make
the folder. -/
abbrev Lucks := Map RuleId SaveLuck

def SaveLuck.fails : SaveLuck where
  before := []
  makesFolder := false
  writes := none
  version := ⟨false, false⟩
  after := []
  look := ⟨⟨false, fun _ => false, fun _ => false⟩, false, [], fun _ => false⟩

def Lucks.of (lucks : Lucks) (id : RuleId) : SaveLuck := (lucks[id]?).getD .fails

structure ArmLuck where
  versions : RuleId → VersionLuck
  turnsOff : Lucks

/-- What the core answers of each person, and how the flows of those who are gone are handed over. -/
structure Refresh where
  answers : UserId → Option PersonReach
  handsOver : Lucks

/-- Who asks: an owner, or somebody the core is asked about first. -/
inductive Asker
  | owner
  | user (id : UserId) (answer : Option PersonReach)

namespace World

variable (env : Env) (format : Format) (w : World)

def save (flow : Flow) (luck : SaveLuck) : Except String Unit × World :=
  let (answer, disk, store) := w.service.store.save env format w.disk flow luck
  (answer, { disk, service := { w.service with store } })

def handOverOne (id : RuleId) (luck : SaveLuck) : World :=
  match w.service.store.flows[id]? with
  | none => w
  | some flow => (w.save env format { flow with owner := none, enabled := false } luck).2

/-- A removed person's flows are kept, turned off, and the home's own. -/
def handOver (lucks : Lucks) : World :=
  w.service.gone.foldl (fun w id => w.handOverOne env format id (lucks.of id)) w

def turnOffOne (flow : Flow) (luck : SaveLuck) : World :=
  (w.save env format { flow with enabled := false } luck).2

def turnOff (lucks : Lucks) : World :=
  (w.service.toTurnOff env).foldl
    (fun w flow => w.turnOffOne env format flow (lucks.of flow.id)) w

def keepVersions (versions : RuleId → VersionLuck) : World :=
  { w with disk := (Map.vals w.service.store.flows).foldl (fun disk flow =>
      (disk.keepVersion env flow (versions flow.id)).getD disk) w.disk }

/-- What the engine says of the flows once it has been handed them. -/
def handOn : World :=
  { w with service := { w.service with
      armed := w.service.store.flows.map fun _ flow =>
        Engine.armedOf ⟨flow, w.service.problems env flow⟩ } }

def arm (luck : ArmLuck) : World :=
  (((w.keepVersions env luck.versions).turnOff env format luck.turnsOff)).handOn env

def learnAll (refresh : Refresh) : World :=
  { w with service := w.service.learnAll refresh.answers }

/-- Who is asking, if they may, as a flow they save is stamped: an owner, or one of the people. -/
def whoAsks : Asker → Option (Option UserId) × World
  | .owner => (some none, w)
  | .user user answer =>
    let service := w.service.learn user answer
    (if (service.people[user]?).any fun standing => standing.told.here then some (some user)
      else none,
      { w with service })

def stamped (by_ : Option UserId) (flow : Flow) : Flow :=
  { flow with owner :=
      match w.service.store.flows[flow.id]? with
      | some existing => existing.owner
      | none => by_ }

end World

inductive Request
  | save (flow : Flow)
  | enable (id : RuleId) (enabled : Bool)
  | restore (id : RuleId) (version : String)

inductive Event
  | edited (edits : List Edit)
  /-- The core says that the home changed, or the people; reading the home again can fail. -/
  | registryChanged (registry : Option RegistryView) (refresh : Refresh) (luck : ArmLuck)
  | polled (others : Bool) (glance : Glance) (between : List Edit) (look : Look)
      (refresh : Refresh) (luck : ArmLuck)
  | asked (asker : Asker)
  | requested (asker : Asker) (request : Request) (save : SaveLuck) (luck : ArmLuck)
  | deleted (asker : Asker) (id : RuleId) (removes : Bool) (after : List Edit) (look : Look)
      (luck : ArmLuck)
  | restarted (look : Look) (registry : RegistryView) (refresh : Refresh) (luck : ArmLuck)

namespace World

variable (env : Env) (format : Format) (w : World)

/-- The flow a request would save, where somebody who may ask asks for it. -/
def asksFor (asker : Asker) (request : Request) : Option Flow :=
  let w' := (w.whoAsks asker).2
  (w.whoAsks asker).1.bind fun by_ =>
    match request with
    | .save flow => some (w'.stamped by_ flow)
    | .enable id enabled => (w'.service.store.flows[id]?).map fun flow => { flow with enabled }
    | .restore id version =>
      ((w'.disk.versions[id]?).bind (·[version]?)).map (w'.stamped by_)

/-- The world once what an event brings has been taken in, before anything is handed over. -/
def told : Event → World
  | .edited edits => { w with disk := w.disk.edit edits }
  | .registryChanged none _ _ => w
  | .registryChanged (some registry) refresh _ =>
    ({ w with service := { w.service with
      registry, homeWas := w.service.homeWas + 1 } } : World).learnAll refresh
  | .polled others glance between look refresh _ =>
    let polled := w.service.store.poll format w.disk others glance between look
    let w : World := { disk := polled.2.1, service := { w.service with store := polled.2.2 } }
    if polled.1 then w.learnAll refresh else w
  | .asked asker => (w.whoAsks asker).2
  | .requested asker request save _ =>
    match w.asksFor asker request with
    | some flow => ((w.whoAsks asker).2.save env format flow save).2
    | none => (w.whoAsks asker).2
  | .deleted asker id removes after look _ =>
    let w' := (w.whoAsks asker).2
    if (w.whoAsks asker).1.isSome then
      let deleted := w'.service.store.delete format w'.disk id removes after look
      { disk := deleted.2.1, service := { w'.service with store := deleted.2.2 } }
    else w'
  | .restarted look registry refresh _ =>
    let opened := Store.open_ format w.service.store.flowsDir w.disk look
    ({ disk := opened.1, service := ⟨opened.2, registry, 0, ∅, false, ∅⟩ } : World).learnAll refresh

/-- How the flows of people who are gone are handed over in an event, where the people are asked
about. -/
def refreshes : Event → Option Lucks
  | .registryChanged (some _) refresh _ => some refresh.handsOver
  | .polled others glance between look refresh _ =>
    if (w.service.store.poll format w.disk others glance between look).1 then
      some refresh.handsOver
    else none
  | .restarted _ _ refresh _ => some refresh.handsOver
  | _ => none

def arms : Event → Option ArmLuck
  | .registryChanged (some _) _ luck => some luck
  | .polled others glance between look _ luck =>
    if (w.service.store.poll format w.disk others glance between look).1 then some luck else none
  | .requested asker request save luck =>
    if (w.asksFor asker request).any fun flow =>
        ((w.whoAsks asker).2.save env format flow save).1.toOption.isSome then some luck
    else none
  | .deleted asker _ removes _ _ luck =>
    if (w.whoAsks asker).1.isSome && removes then some luck else none
  | .restarted _ _ _ luck => some luck
  | _ => none

def checked (event : Event) : World :=
  match w.refreshes format event with
  | some lucks => (w.told env format event).handOver env format lucks
  | none => w.told env format event

def after (event : Event) : World :=
  match w.arms env format event with
  | some luck =>
    let armed := (w.checked env format event).arm env format luck
    { armed with service := { armed.service with started := true } }
  | none => w.checked env format event

end World

end Irori.Automations
