import Irori.Home.Updates

/-!
# What protocols tell the core

The operations that change the home: describing devices and entities, removing them, reporting
states, and the settings that take devices in and out of the home.
-/

namespace Irori.Core

variable {κ σ : Type}

/-- Whether a change comes from the protocol saying something, or from the core. -/
inductive Reported
  | yes
  | no
  deriving DecidableEq

namespace Home

variable (home : Home κ σ)

def keepFound (protocol : ProtocolId) (description : DeviceDescription) : Changes κ σ :=
  let heldId := deviceIdFor protocol description.uniqueId
  match home.found[heldId]? with
  | some found =>
    (if found.description = description then [] else [.foundChanged],
      { home with found := home.found.insert heldId { found with description } })
  | none =>
    ([.foundChanged],
      { home with
        found := home.found.insert heldId
          { protocol, description, entities := ∅, reports := ∅, available := true } })

def viaFor (protocol : ProtocolId) (description : DeviceDescription) :
    Except Rejected (Option DeviceId) :=
  match description.viaDeviceUniqueId.filter
      fun via => !home.found.contains (deviceIdFor protocol via) with
  | none => .ok none
  | some via =>
    match home.deviceKeys[(⟨protocol, via⟩ : Key)]? with
    | some id => .ok (some id)
    | none => .error ⟨"device `" ++ description.uniqueId.text ++ "`: via_device_unique_id `" ++
        via.text ++ "` isn't a device this protocol described"⟩

/-- Whether `steps` steps through `viaDeviceId` from a device come to `target`. -/
def reachesIn (target : DeviceId) : Nat → Option DeviceId → Bool
  | 0, _ => true
  | _ + 1, none => false
  | steps + 1, some id =>
    if id = target then true
    else reachesIn target steps ((home.devices[id]?).bind Device.viaDeviceId)

def reaches (id target : DeviceId) : Bool :=
  home.reachesIn target (home.devices.size + 1) (some id)

def updateDevice (kinds : Kinds κ σ) (id : DeviceId) (description : DeviceDescription)
    (via : Option DeviceId) : Outcome κ σ :=
  if via.any (home.reaches · id) then
    some (.error ⟨"device `" ++ description.uniqueId.text ++ "`: being reached via `" ++
      (description.viaDeviceUniqueId.map Checked.text).getD "" ++ "` would make a loop"⟩, home)
  else
    match home.devices[id]? with
    | none => none
    | some before =>
      let device : Device := { before with
        name := home.nameForDevice id description.name
        manufacturer := description.manufacturer
        model := description.model
        swVersion := description.swVersion
        hwVersion := description.hwVersion
        serialNumber := description.serialNumber
        suggestedArea := description.suggestedArea
        areaId := home.areaForDevice kinds id description.suggestedArea
        viaDeviceId := via }
      let home := { home with
        reportedDeviceNames := home.reportedDeviceNames.insert id description.name
        deviceDescriptions := home.deviceDescriptions.insert id description
        devices := home.devices.insert id device }
      if device = before then some (.ok [], home)
      else if device.name = before.name then some (.ok [.deviceUpdated device], home)
      else
        -- Not every entity of a renamed device follows it.
        let following := (home.owned id).map Entity.id
        (sweep (fun entity home => home.renameEntity (some id) entity) following ([], home)).map
          fun (events, home) => (.ok (.deviceUpdated device :: events), home)

/-- A device that is new to the home. Its id comes from what never changes. -/
def addDevice (kinds : Kinds κ σ) (protocol : ProtocolId) (description : DeviceDescription)
    (via : Option DeviceId) : Except Rejected (List (Event κ σ)) × Home κ σ :=
  let id := deviceIdFor protocol description.uniqueId
  match home.devices[id]? with
  | some holder =>
    (.error ⟨"device `" ++ description.uniqueId.text ++ "` would have the id `" ++ id.text ++
      "`, which `" ++ holder.uniqueId.text ++ "` already has; its unique_id has to differ by " ++
      "more than case or punctuation"⟩, home)
  | none =>
    let device : Device :=
      { id, protocol
        uniqueId := description.uniqueId
        name := home.nameForDevice id description.name
        description := home.descriptionForDevice id
        manufacturer := description.manufacturer
        model := description.model
        swVersion := description.swVersion
        hwVersion := description.hwVersion
        serialNumber := description.serialNumber
        areaId := home.areaForDevice kinds id description.suggestedArea
        suggestedArea := description.suggestedArea
        viaDeviceId := via }
    (.ok [.deviceAdded device],
      { home with
        deviceDescriptions := home.deviceDescriptions.insert id description
        reportedDeviceNames := home.reportedDeviceNames.insert id description.name
        deviceKeys := home.deviceKeys.insert device.key id
        devices := home.devices.insert id device })

def describeDevice (kinds : Kinds κ σ) (protocol : ProtocolId)
    (description : DeviceDescription) : Outcome κ σ :=
  match description.validate with
  | .error e => some (.error ⟨e⟩, home)
  | .ok () =>
    let heldId := deviceIdFor protocol description.uniqueId
    if home.isHeld protocol heldId || home.found.contains heldId then
      let (events, home) := home.keepFound protocol description
      some (.ok events, home)
    else
      match home.viaFor protocol description with
      | .error e => some (.error e, home)
      | .ok via =>
        match home.deviceKeys[(⟨protocol, description.uniqueId⟩ : Key)]? with
        | some id => home.updateDevice kinds id description via
        | none => some (home.addDevice kinds protocol description via)

def setAvailabilityOf1 (availability : Availability) (now : Timestamp) (context : Context)
    (reported : Reported) (id : EntityId) : Changes κ σ :=
  match home.states[id]? with
  | none => ([], home)
  | some old =>
    if old.availability = availability then
      -- Nothing changed, but hearing it again from the protocol is a report.
      ([], if reported = .yes then
          { home with
            states := home.states.insert id
              { old with lastReported := max now old.lastReported } }
        else home)
    else
      let now := max now old.lastUpdated
      let new := { old with
        availability
        lastChanged := now
        lastUpdated := now
        lastReported := if reported = .yes then max now old.lastReported else old.lastReported
        context }
      ([.stateChanged id (some old) new], { home with states := home.states.insert id new })

def setAvailabilityOf (ids : List EntityId) (availability : Availability) (now : Timestamp)
    (context : Context) (reported : Reported) : Changes κ σ :=
  ids.foldl (fun changes id =>
    let (events, home) := changes.2.setAvailabilityOf1 availability now context reported id
    (changes.1 ++ events, home)) ([], home)

/-- What every change of one entity keeps, the changes of a list of them keep. -/
lemma setAvailabilityOf_induct {home : Home κ σ} {ids : List EntityId}
    {availability : Availability} {now : Timestamp} {context : Context} {reported : Reported}
    {motive : Changes κ σ → Prop} (start : motive ([], home))
    (step : ∀ changes : Changes κ σ, ∀ id ∈ ids, motive changes →
      motive (changes.1 ++ (changes.2.setAvailabilityOf1 availability now context reported id).1,
        (changes.2.setAvailabilityOf1 availability now context reported id).2)) :
    motive (home.setAvailabilityOf ids availability now context reported) :=
  List.foldlRecOn ids _ start fun changes h id hid => step changes id hid h

def entityIds (protocol : ProtocolId) : List UniqueId → Except Rejected (List EntityId)
  | [] => .ok []
  | u :: rest =>
    match home.entityKeys[(⟨protocol, u⟩ : Key)]? with
    | none => .error ⟨"can't set availability of entity `" ++ u.text ++
        "`: this protocol has no such entity"⟩
    | some id => (entityIds protocol rest).map (id :: ·)

def setAvailability (protocol : ProtocolId) (target : AvailabilityTarget)
    (availability : Availability) (stamp : Stamp) :
    Except Rejected (List (Event κ σ)) × Home κ σ :=
  let context := deviceContext protocol stamp none
  let set (ids : List EntityId) : Except Rejected (List (Event κ σ)) × Home κ σ :=
    let (events, home) := home.setAvailabilityOf ids availability stamp.now context .yes
    (.ok events, home)
  match target with
  | .device device =>
    let heldId := deviceIdFor protocol device
    match home.found[heldId]? with
    | some found =>
      (.ok [], { home with
        found := home.found.insert heldId { found with available := availability == .available } })
    | none =>
      match home.deviceKeys[(⟨protocol, device⟩ : Key)]? with
      | none => (.error ⟨"can't set availability of device `" ++ device.text ++
          "`: this protocol has no such device"⟩, home)
      | some id => set ((home.owned id).map Entity.id)
  | .entities uniqueIds =>
    let kept := uniqueIds.filter fun u => !home.foundEntities.contains ⟨protocol, u⟩
    if kept.isEmpty then (.ok [], home)
    else
      match home.entityIds protocol kept with
      | .error e => (.error e, home)
      | .ok ids => set ids

def markUnavailable (protocol : ProtocolId) (stamp : Stamp) : Changes κ σ :=
  let ids := ((Map.vals home.entities).filter fun entity => entity.protocol == protocol).map
    Entity.id
  home.setAvailabilityOf ids .unavailable stamp.now (systemContext stamp) .no

def keepFoundEntity (protocol : ProtocolId) (kinds : List EntityKind)
    (description : EntityDescription κ) (deviceId : DeviceId) (found : Found κ σ) : Home κ σ :=
  { home with
    foundEntities := home.foundEntities.insert ⟨protocol, description.uniqueId⟩ deviceId
    found := home.found.insert deviceId
      { found with entities := found.entities.insert description.uniqueId (kinds, description) } }

/-- A stored value the entity's abilities no longer fit is forgotten. -/
def forgetMisfit (kinds : Kinds κ σ) (id : EntityId) (capabilities : κ) (old : EntityState σ)
    (stamp : Stamp) : Changes κ σ :=
  match old.state with
  | none => ([], home)
  | some state =>
    match kinds.fit capabilities state with
    | .ok () => ([], home)
    | .error _ =>
      let now := max stamp.now old.lastUpdated
      let new := { old with
        state := none, lastChanged := now, lastUpdated := now, context := systemContext stamp }
      ([.stateChanged id (some old) new],
        { home with
          commanded := home.commanded.erase id
          states := home.states.insert id new })

/-- What protocols call their entities, once one is described again. Nameless, it follows its
device's name. -/
def renamed (id : EntityId) (name : Option Name) : Map EntityId Name :=
  match name with
  | some name => home.reportedEntityNames.insert id name
  | none => home.reportedEntityNames.erase id

section Describing

variable [DecidableEq κ]

def updateEntity (kinds : Kinds κ σ) (protocol : ProtocolId) (listed : List EntityKind)
    (description : EntityDescription κ) (deviceId : Option DeviceId) (stamp : Stamp)
    (id : EntityId) : Outcome κ σ :=
  match home.entities[id]? with
  | none => none
  | some before =>
    if before.id.kind ≠ description.kind kinds then
      some (.error ⟨"entity `" ++ description.uniqueId.text ++ "` is already a " ++
        before.id.kind.domain ++ "; it can't become a " ++ (description.kind kinds).domain ++
        " (use a different unique_id)"⟩, home)
    else
      let home := { home with
        reportedEntityNames := home.renamed id description.name
        entityDescriptions := home.entityDescriptions.insert id (listed, description) }
      match home.nameForEntity id deviceId, home.states[id]? with
      | some name, some old =>
        let entity := { before with
          name
          capabilities := description.capabilities
          entityCategory := description.entityCategory
          deviceId }
        let home := { home with entities := home.entities.insert id entity }
        let updated := if entity = before then [] else [.entityUpdated entity]
        let (misfit, home) := home.forgetMisfit kinds id entity.capabilities old stamp
        -- Being described means the protocol is back in touch with it.
        let (available, home) := home.setAvailabilityOf [id] .available stamp.now
          (deviceContext protocol stamp none) .yes
        some (.ok (updated ++ misfit ++ available), home)
      | _, _ => none

/-- What a new entity's id is built from: never a name a person chose. -/
def objectIdBase (description : EntityDescription κ) (device : Option Device) : Option String :=
  match description.suggestedObjectId, description.name, device with
  | some objectId, _, _ => some objectId.text
  | none, some reported, some device => some (slugify (device.id.text ++ " " ++ reported.text))
  | none, none, some device => some device.id.text
  | none, some reported, none => some (slugify reported.text)
  | none, none, none => none

/-- What a new entity is called unless a person says otherwise. -/
def otherwiseNamed (description : EntityDescription κ) (device : Option Device) : Option Name :=
  match description.name with
  | some name => some name
  | none => device.map Device.name

/-- The id of a new entity: `none` where the code panics. -/
def newEntityId (kind : EntityKind) (base : String) : Option EntityId :=
  let taken (objectId : String) : Bool :=
    match EntityId.new kind objectId with
    | .ok id => home.entities.contains id
    | .error _ => false
  (uniqueIdFor base kind.domain taken).bind fun objectId => (EntityId.new kind objectId).toOption

def addEntity (kinds : Kinds κ σ) (protocol : ProtocolId) (listed : List EntityKind)
    (description : EntityDescription κ) (device : Option Device) (stamp : Stamp) :
    Outcome κ σ :=
  match otherwiseNamed description device, objectIdBase description device with
  | some otherwise, some base =>
    match home.newEntityId (description.kind kinds) base with
    | none => none
    | some id =>
      let key : Key := ⟨protocol, description.uniqueId⟩
      let entity : Entity κ :=
        { id, protocol
          uniqueId := description.uniqueId
          name := (home.chosenName key).getD otherwise
          deviceId := device.map Device.id
          areaId := none
          capabilities := description.capabilities
          entityCategory := description.entityCategory }
      let state : EntityState σ :=
        { entityId := id
          availability := .available
          state := none
          attributes := ∅
          lastChanged := stamp.now
          lastUpdated := stamp.now
          lastReported := stamp.now
          context := systemContext stamp }
      some (.ok [.entityAdded entity, .stateChanged id none state],
        { home with
          reportedEntityNames :=
            match description.name with
            | some reported => home.reportedEntityNames.insert id reported
            | none => home.reportedEntityNames
          entityDescriptions := home.entityDescriptions.insert id (listed, description)
          entityKeys := home.entityKeys.insert key id
          entities := home.entities.insert id entity
          states := home.states.insert id state })
  | _, _ => none

def describeLive (kinds : Kinds κ σ) (protocol : ProtocolId) (listed : List EntityKind)
    (description : EntityDescription κ) (stamp : Stamp) (device : Option Device) : Outcome κ σ :=
  match home.entityKeys[(⟨protocol, description.uniqueId⟩ : Key)]? with
  | some id =>
    home.updateEntity kinds protocol listed description (device.map Device.id) stamp id
  | none => home.addEntity kinds protocol listed description device stamp

def describeEntity (kinds : Kinds κ σ) (protocol : ProtocolId) (listed : List EntityKind)
    (description : EntityDescription κ) (stamp : Stamp) : Outcome κ σ :=
  match description.validate kinds with
  | .error e => some (.error ⟨e⟩, home)
  | .ok () =>
    let kind := description.kind kinds
    if !listed.contains kind then
      some (.error ⟨"entity `" ++ description.uniqueId.text ++ "` is a " ++ kind.domain ++
        ", but the manifest's entity_kinds doesn't list " ++ kind.domain⟩, home)
    else
      match description.deviceUniqueId with
      | none => home.describeLive kinds protocol listed description stamp none
      | some device =>
        let heldId := deviceIdFor protocol device
        match home.found[heldId]? with
        | some found =>
          some (.ok [], home.keepFoundEntity protocol listed description heldId found)
        | none =>
          match home.deviceKeys[(⟨protocol, device⟩ : Key)]? with
          | none => some (.error ⟨"entity `" ++ description.uniqueId.text ++
              "`: device_unique_id `" ++ device.text ++
              "` isn't a device this protocol described (describe the device first)"⟩, home)
          | some id =>
            match home.devices[id]? with
            | none => none
            | some device =>
              home.describeLive kinds protocol listed description stamp (some device)

end Describing

def removeEntity (protocol : ProtocolId) (uniqueId : UniqueId) :
    Except Rejected (List (Event κ σ)) × Home κ σ :=
  let key : Key := ⟨protocol, uniqueId⟩
  match home.foundEntities[key]? with
  | some device =>
    (.ok [], { home with
      foundEntities := home.foundEntities.erase key
      found :=
        match home.found[device]? with
        | some found => home.found.insert device { found with
            entities := found.entities.erase uniqueId
            reports := found.reports.erase uniqueId }
        | none => home.found })
  | none =>
    match home.entityKeys[key]? with
    | none => (.error ⟨"can't remove entity `" ++ uniqueId.text ++
        "`: this protocol has no such entity"⟩, home)
    | some id =>
      (.ok [.entityRemoved id], { home with
        entityKeys := home.entityKeys.erase key
        entityDescriptions := home.entityDescriptions.erase id
        entities := home.entities.erase id
        states := home.states.erase id
        reportedEntityNames := home.reportedEntityNames.erase id
        commanded := home.commanded.erase id })

def removeEntities : List (Entity κ) → Home κ σ →
    Except Rejected (List (Event κ σ)) × Home κ σ
  | [], home => (.ok [], home)
  | entity :: rest, home =>
    match home.removeEntity entity.protocol entity.uniqueId with
    | (.error e, home) => (.error e, home)
    | (.ok events, home) =>
      let (result, home) := removeEntities rest home
      (result.map (events ++ ·), home)

def dropFound (protocol : ProtocolId) (id : DeviceId) (found : Found κ σ) : Home κ σ :=
  { home with
    found := home.found.erase id
    foundEntities := found.entities.keys.foldl (fun keys u => keys.erase ⟨protocol, u⟩)
      home.foundEntities }

def unreach (id : DeviceId) (device : Device) : Device :=
  if device.viaDeviceId = some id then { device with viaDeviceId := none } else device

def dropDevice (id : DeviceId) : Changes κ σ :=
  let reached := (Map.vals home.devices).filter fun device => device.viaDeviceId == some id
  (reached.map (fun device => .deviceUpdated (unreach id device)) ++ [.deviceRemoved id],
    { home with devices := (home.devices.map fun _ device => unreach id device).erase id })

def removeDevice (protocol : ProtocolId) (uniqueId : UniqueId) :
    Except Rejected (List (Event κ σ)) × Home κ σ :=
  let heldId := deviceIdFor protocol uniqueId
  match home.found[heldId]? with
  | some found => (.ok [], home.dropFound protocol heldId found)
  | none =>
    match home.deviceKeys[(⟨protocol, uniqueId⟩ : Key)]? with
    | none => (.error ⟨"can't remove device `" ++ uniqueId.text ++
        "`: this protocol has no such device"⟩, home)
    | some id =>
      let home := { home with
        deviceKeys := home.deviceKeys.erase ⟨protocol, uniqueId⟩
        deviceDescriptions := home.deviceDescriptions.erase id }
      match removeEntities (home.owned id) home with
      | (.error e, home) => (.error e, home)
      | (.ok events, home) =>
        let (more, home) := home.dropDevice id
        (.ok (events ++ more), home)

def removeProtocol (protocol : ProtocolId) : Changes κ σ :=
  let live := ((Map.vals home.devices).filter fun device => device.protocol == protocol).map
    Device.uniqueId
  let found := ((Map.vals home.found).filter fun found => found.protocol == protocol).map
    fun found => found.description.uniqueId
  (live ++ found).foldl (fun changes uniqueId =>
    let (result, home) := changes.2.removeDevice protocol uniqueId
    (changes.1 ++ result.toOption.getD [], home)) ([], home)

def knowsCall (protocol : ProtocolId) (causedBy : ContextId) (now : Timestamp) : Bool :=
  (home.recentCalls[protocol]?).any fun calls =>
    calls.any fun (id, at_) => id == causedBy && withinCallWindow at_ now

section Reporting

variable [DecidableEq σ]

def keepReport (protocol : ProtocolId) (report : StateReport σ) (parent : Option ContextId)
    (stamp : Stamp) (id : EntityId) (old : EntityState σ) : Changes κ σ :=
  let home := { home with commanded := home.commanded.erase id }
  -- A clock that steps backwards never moves a timestamp back.
  let now := max (max stamp.now old.lastUpdated) old.lastReported
  let occurrence := id.kind.countsEveryReport
  let kept (new : EntityState σ) : Home κ σ :=
    { home with states := home.states.insert id new }
  if occurrence && report.replayed then
    let new := { old with lastReported := now }
    ([], kept (if new.state ≠ report.state ∨ new.attributes ≠ report.attributes then
      { new with state := report.state, attributes := report.attributes, lastUpdated := now }
      else new))
  else
    let stateChanged := decide (old.state ≠ report.state) || (occurrence && report.state.isSome)
    let changed := stateChanged || decide (old.attributes ≠ report.attributes)
    let new := { old with lastReported := now }
    if changed then
      let new := { new with
        state := report.state
        attributes := report.attributes
        lastUpdated := now
        lastChanged := if stateChanged then now else new.lastChanged
        context := deviceContext protocol stamp parent }
      ([.stateChanged id (some old) new], kept new)
    else ([], kept new)

/-- What the core would ignore mustn't be what gets a report refused. -/
def cleaned (report : StateReport σ) : StateReport σ :=
  match report.state with
  | some (.update update) => { report with state := some (.update (clean update)) }
  | _ => report

def foldReport (protocol : ProtocolId) (id : EntityId) (report : StateReport σ) :
    StateReport σ × Home κ σ :=
  match report.state with
  | some (.update update) =>
    let (state, home) := home.foldUpdate id ⟨protocol, report.uniqueId⟩ update
    ({ report with state := some state }, home)
  | _ => (report, home)

def reportLive (kinds : Kinds κ σ) (protocol : ProtocolId) (report : StateReport σ)
    (stamp : Stamp) (id : EntityId) : Outcome κ σ :=
  match home.entities[id]? with
  | none => none
  | some entity =>
    match (match report.state with
      | some state => kinds.fit entity.capabilities state
      | none => .ok ()) with
    | .error what => some (.error ⟨"state report for `" ++ entity.id.text ++ "`: " ++ what⟩, home)
    | .ok () =>
      let (report, home) := home.foldReport protocol id report
      match report.causedBy with
      | some causedBy =>
        if home.knowsCall protocol causedBy stamp.now then
          match home.states[id]? with
          | none => none
          | some old =>
            let (events, home) := home.keepReport protocol report (some causedBy) stamp id old
            some (.ok events, home)
        else
          some (.error ⟨"state report for `" ++ report.uniqueId.text ++ "`: caused_by `" ++
            causedBy.text ++ "` isn't a service call sent to this protocol in the last 5 minutes"⟩,
            home)
      | none =>
        match home.states[id]? with
        | none => none
        | some old =>
          let (events, home) := home.keepReport protocol report none stamp id old
          some (.ok events, home)

def reportState (kinds : Kinds κ σ) (protocol : ProtocolId) (report : StateReport σ)
    (stamp : Stamp) : Outcome κ σ :=
  let report := cleaned report
  match report.validate kinds with
  | .error e => some (.error ⟨e⟩, home)
  | .ok () =>
    let key : Key := ⟨protocol, report.uniqueId⟩
    match home.foundEntities[key]? with
    | some device =>
      some (.ok [], { home with
        found :=
          match home.found[device]? with
          | some found => home.found.insert device { found with
              reports := found.reports.insert report.uniqueId { report with causedBy := none } }
          | none => home.found })
    | none =>
      match home.entityKeys[key]? with
      | none => some (.error ⟨"state report for `" ++ report.uniqueId.text ++
          "`: this protocol has no such entity (describe it first)"⟩, home)
      | some id => home.reportLive kinds protocol report stamp id

end Reporting

def holdEntity (found : Found κ σ) (entity : Entity κ) : Found κ σ :=
  let found :=
    match home.entityDescriptions[entity.id]? with
    | some described => { found with entities := found.entities.insert entity.uniqueId described }
    | none => found
  match home.states[entity.id]? with
  | some state =>
    { found with
      available := found.available && state.availability != .unavailable
      reports := found.reports.insert entity.uniqueId
        { uniqueId := entity.uniqueId
          state := state.state
          attributes := state.attributes
          causedBy := none
          replayed := false } }
  | none => found

/-- Takes a device out of the home, keeping what its protocol said so it can be added again. -/
def hold (id : DeviceId) : Changes κ σ :=
  match home.devices[id]?, home.deviceDescriptions[id]? with
  | some device, some description =>
    let owned := home.owned id
    let found := owned.foldl home.holdEntity
      { protocol := device.protocol, description, entities := ∅, reports := ∅, available := true }
    -- Removed first, then recorded as found.
    let (result, home) := home.removeDevice device.protocol device.uniqueId
    (result.toOption.getD [],
      { home with
        foundEntities := owned.foldl
          (fun keys entity => keys.insert ⟨device.protocol, entity.uniqueId⟩ id)
          home.foundEntities
        found := home.found.insert id found })
  | _, _ => ([], home)

def refreshDevice (kinds : Kinds κ σ) (id : DeviceId) : Option (Changes κ σ) :=
  match home.reportedDeviceNames[id]?, home.devices[id]? with
  | some reported, some device =>
    let refreshed := { device with
      name := home.nameForDevice id reported
      description := home.descriptionForDevice id
      areaId := home.areaForDevice kinds id device.suggestedArea }
    if refreshed = device then some ([], home)
    else some ([.deviceUpdated refreshed],
      { home with devices := home.devices.insert id refreshed })
  | _, _ => none

def refreshEntity (id : EntityId) : Option (Changes κ σ) :=
  match home.entities[id]? with
  | some entity => home.renameEntity entity.deviceId id
  | none => none

def nowHeld : List DeviceId :=
  (home.devices.toList.filter fun (id, device) => home.isHeld device.protocol id).map Prod.fst

def nowAdded : List DeviceId :=
  (home.found.toList.filter fun (id, found) => !home.isHeld found.protocol id).map Prod.fst

section Settings

variable [DecidableEq κ] [DecidableEq σ]

/-- Puts a found device in the home, as its protocol last described it. -/
def admitDevice (kinds : Kinds κ σ) (id : DeviceId) (stamp : Stamp) : Option (Changes κ σ) :=
  match home.found[id]? with
  | none => some ([], home)
  | some found =>
    let protocol := found.protocol
    let described : Option (Changes κ σ) :=
      ((home.dropFound protocol id found).describeDevice kinds protocol found.description).quiet
    let entities := described.bind (sweep (fun (described : List EntityKind × EntityDescription κ)
      home => (home.describeEntity kinds protocol described.1 described.2 stamp).quiet)
      (Map.vals found.entities))
    -- What it last said, said again: not something happening now.
    let reports := entities.bind (sweep (fun (report : StateReport σ) home =>
      (home.reportState kinds protocol { report with replayed := true } stamp).quiet)
      (Map.vals found.reports))
    reports.map fun (events, home) =>
      if found.available then (events, home)
      else
        let (result, home) := home.setAvailability protocol (.device found.description.uniqueId)
          .unavailable stamp
        (events ++ result.toOption.getD [], home)

/-- Takes what a person has said about the home and brings the registry in line with it: first in
and out of the home, then names and rooms. -/
def applySettings (kinds : Kinds κ σ) (settings : Settings) (stamp : Stamp) :
    Option (Changes κ σ) :=
  if home.settings = settings then some ([], home)
  else
    let home := { home with settings }
    let held := sweep (fun id home => some (hold home id)) home.nowHeld ([], home)
    let admitted := held.bind fun changes =>
      sweep (fun id home => home.admitDevice kinds id stamp) changes.2.nowAdded changes
    let devices := admitted.bind fun changes =>
      sweep (fun id home => home.refreshDevice kinds id) changes.2.devices.keys changes
    let entities := devices.bind fun changes =>
      sweep (fun id home => home.refreshEntity id) changes.2.entities.keys changes
    entities.map fun (events, home) =>
      (if events.isEmpty then [.settingsChanged] else events, home)

end Settings

/-- Removes a device from the home, and puts it back among what its protocol has found. -/
def forgetDevice (id : DeviceId) : Except Rejected (List (Event κ σ)) × Home κ σ :=
  if home.devices.contains id then
    let (events, home) := home.hold id
    (.ok events, home)
  else if home.found.contains id then (.ok [], home)
  else (.error ⟨"there's no device `" ++ id.text ++ "`"⟩, home)

/-- Remembers what an entity was just told to be, until it reports back. -/
def recordCommand (id : EntityId) (asksFor : Option Typed) : Home κ σ :=
  { home with
    commanded :=
      match asksFor with
      | some value => home.commanded.insert id value
      | none => home.commanded.erase id }

/-- Forgets what an entity was told to be, e.g. because the call failed. -/
def forgetCommand (id : EntityId) : Home κ σ :=
  { home with commanded := home.commanded.erase id }

def recordCall (protocol : ProtocolId) (contextId : ContextId) (now : Timestamp) : Home κ σ :=
  let calls := ((home.recentCalls[protocol]?).getD []).dropWhile
    fun (_, at_) => !withinCallWindow at_ now
  let calls := if calls.length = maxRecentCalls then calls.drop 1 else calls
  { home with recentCalls := home.recentCalls.insert protocol (calls ++ [(contextId, now)]) }

def forgetCall (protocol : ProtocolId) (contextId : ContextId) : Home κ σ :=
  { home with
    recentCalls :=
      match home.recentCalls[protocol]? with
      | some calls =>
        home.recentCalls.insert protocol (calls.filter fun (id, _) => id != contextId)
      | none => home.recentCalls }

end Home

end Irori.Core
