import Irori.Home.Seen
import Irori.Proofs.Housing
import Irori.Home.Sample

/-!
# What is seen stays in the rooms

What a person with some rooms is shown names nothing outside them, as long as nothing in them refers
to something that isn't, and says nothing of the rest of the home.
-/

namespace Irori.Core
open Irori.Proofs

variable {κ σ : Type}

/-- Every table of a home is in order: what is in it is kept under its own id, and a device is where
it should be. -/
structure InOrder (kinds : Kinds κ σ) (home : Home κ σ) : Prop where
  deviceId : ∀ (D : DeviceId) (d : Device), home.devices[D]? = some d → d.id = D
  entityId : ∀ (E : EntityId) (e : Entity κ), home.entities[E]? = some e → e.id = E
  stated : Stated home
  placed : ∀ D : DeviceId, AtPlace kinds home D

lemma inOrder_of_comesTo [DecidableEq κ] [DecidableEq σ] {kinds : Kinds κ σ}
    {Allowed : Home κ σ → HomeOp κ σ → Prop} {home : Home κ σ} (h : ComesTo kinds Allowed home) :
    InOrder kinds home := by
  have hkeyed := comesTo_keyed h
  have hhoused := comesTo_housed h
  exact ⟨hkeyed.deviceId, hkeyed.entityId, hhoused.stated, fun D => hhoused.placed D trivial⟩

def Device.names (d : Device) : List Thing :=
  .device d.id :: (d.areaId.toList.map Thing.area ++ d.viaDeviceId.toList.map Thing.device)

def Entity.names (e : Entity κ) : List Thing :=
  .entity e.id :: (e.deviceId.toList.map Thing.device ++ e.areaId.toList.map Thing.area)

def EntityState.names (s : EntityState σ) : List Thing := [.entity s.entityId]

def Area.names (a : Area) : List Thing := .area a.id :: a.floorId.toList.map Thing.floor

def Wall.names (w : Wall) : List Thing :=
  w.openings.flatMap fun opening => opening.sensor.toList.map Thing.entity

def PlacedDevice.names (placed : PlacedDevice) : List Thing :=
  placed.device.toList.map Thing.device ++ placed.entity.toList.map Thing.entity

def Level.names (level : Level) : List Thing :=
  level.walls.flatMap Wall.names ++ level.areas.map (fun placed => Thing.area placed.area) ++
    level.devices.flatMap PlacedDevice.names

/-- Nothing is named that isn't in the rooms. -/
def Inside (rooms : Rooms) (things : List Thing) : Prop := ∀ thing ∈ things, rooms.has thing = true

structure Confined (rooms : Rooms) (seen : Seen κ σ) : Prop where
  devices : ∀ d ∈ seen.devices, Inside rooms d.names ∧ d.suggestedArea = none
  device : ∀ (D : DeviceId) (d : Device), seen.device D = some d →
    Inside rooms d.names ∧ d.suggestedArea = none
  entities : ∀ e ∈ seen.entities, Inside rooms e.names
  entity : ∀ (E : EntityId) (e : Entity κ), seen.entity E = some e → Inside rooms e.names
  states : ∀ s ∈ seen.states, Inside rooms s.names
  state : ∀ (E : EntityId) (s : EntityState σ), seen.state E = some s →
    Inside rooms s.names
  areas : ∀ a ∈ seen.areas, Inside rooms a.names
  floors : ∀ f ∈ seen.floors, rooms.has (.floor f.id) = true
  floorplan : ∀ (F : FloorId) (level : Level), seen.floorplan[F]? = some level →
    rooms.has (.floor F) = true ∧ Inside rooms level.names

def drawn (rooms : Rooms) (level : Level) : List Wall × List PlacedArea × List PlacedDevice :=
  (level.walls, level.areas.filter fun placed => rooms.has (.area placed.area),
    level.devices.filter (Reach.rooms rooms).seesPlaced)

/-- Two homes have the same floors, the same rooms of a list with all that is in them, and the same
walls. -/
structure SameInside (wanted : List AreaId) (a b : Home κ σ) (plan plan' : Floorplan) : Prop where
  floors : b.settings.floors = a.settings.floors
  areas : b.settings.areas.filter (fun area => wanted.contains area.id) =
    a.settings.areas.filter fun area => wanted.contains area.id
  devices : (Map.vals b.devices).filter (fun d => (Rooms.of b wanted).has (.device d.id)) =
    (Map.vals a.devices).filter fun d => (Rooms.of a wanted).has (.device d.id)
  entities : (Map.vals b.entities).filter (fun e => (Rooms.of b wanted).has (.entity e.id)) =
    (Map.vals a.entities).filter fun e => (Rooms.of a wanted).has (.entity e.id)
  states : (Map.vals b.states).filter (fun s => (Rooms.of b wanted).has (.entity s.entityId)) =
    (Map.vals a.states).filter fun s => (Rooms.of a wanted).has (.entity s.entityId)
  plan : ∀ F : FloorId, (Rooms.of a wanted).has (.floor F) = true →
    (plan'[F]?).map (drawn (Rooms.of b wanted)) = (plan[F]?).map (drawn (Rooms.of a wanted))

structure SameAnswers (a b : Seen κ σ) : Prop where
  devices : b.devices = a.devices
  device : ∀ D : DeviceId, b.device D = a.device D
  entities : b.entities = a.entities
  entity : ∀ E : EntityId, b.entity E = a.entity E
  states : b.states = a.states
  state : ∀ E : EntityId, b.state E = a.state E
  areas : b.areas = a.areas
  floors : b.floors = a.floors
  floorplan : b.floorplan = a.floorplan

def seenBy (home : Home κ σ) (plan : Floorplan) (wanted : List AreaId) : Seen κ σ :=
  ⟨home, plan, .rooms (Rooms.of home wanted)⟩

/-- What somebody with some rooms is shown names nothing outside them, and says nothing of the rest
of the home. -/
structure SeenInside (kinds : Kinds κ σ) (home : Home κ σ) (plan : Floorplan) (wanted : List AreaId) :
    Prop where
  confined : Confined (Rooms.of home wanted) (seenBy home plan wanted)
  same : ∀ (other : Home κ σ) (plan' : Floorplan), InOrder kinds other →
    SameInside wanted home other plan plan' →
      SameAnswers (seenBy home plan wanted) (seenBy other plan' wanted)

structure KeepsInside (home : Home κ σ) (plan : Floorplan) (wanted : List AreaId) : Prop where
  /-- An entity with a room of its own is in it with its device. -/
  entities : ∀ (E : EntityId) (e : Entity κ) (D : DeviceId), home.entities[E]? = some e →
    (Rooms.of home wanted).has (.entity E) = true → e.deviceId = some D →
      (Rooms.of home wanted).has (.device D) = true
  /-- What says whether an opening is open is in the rooms. -/
  sensors : ∀ (F : FloorId) (level : Level), plan[F]? = some level →
    (Rooms.of home wanted).has (.floor F) = true →
      Inside (Rooms.of home wanted) (level.walls.flatMap Wall.names)
  /-- A marker of a device is of no entity too. -/
  markers : ∀ (F : FloorId) (level : Level), plan[F]? = some level →
    (Rooms.of home wanted).has (.floor F) = true → ∀ placed ∈ level.devices,
      ∀ (D : DeviceId) (E : EntityId), placed.device = some D → placed.entity = some E →
        (Rooms.of home wanted).has (.device D) = true →
          (Rooms.of home wanted).has (.entity E) = true
  areas : ∀ a ∈ home.settings.areas, (Rooms.of home wanted).has (.area a.id) = true →
    ∀ F : FloorId, a.floorId = some F → (Rooms.of home wanted).has (.floor F) = true

section

variable {home : Home κ σ} {wanted : List AreaId} {kinds : Kinds κ σ} {plan : Floorplan}

lemma has_area {A : AreaId} : (Rooms.of home wanted).has (.area A) = true ↔
    A ∈ wanted ∧ (home.settings.area A).isSome = true := by
  unfold Rooms.has
  rw [decide_eq_true_iff]
  exact List.mem_toFinset.trans List.mem_filter

lemma has_floor {F : FloorId} : (Rooms.of home wanted).has (.floor F) = true ↔
    ∃ A ∈ wanted, (home.settings.area A).bind Area.floorId = some F := by
  unfold Rooms.has
  rw [decide_eq_true_iff]
  refine List.mem_toFinset.trans (List.mem_filterMap.trans ⟨?_, ?_⟩)
  · rintro ⟨A, hA, hF⟩
    exact ⟨A, (List.mem_filter.mp hA).1, hF⟩
  · rintro ⟨A, hA, hF⟩
    refine ⟨A, List.mem_filter.mpr ⟨hA, ?_⟩, hF⟩
    obtain ⟨area, harea, _⟩ := Option.bind_eq_some_iff.mp hF
    rw [harea]
    rfl

lemma has_device {D : DeviceId} : (Rooms.of home wanted).has (.device D) = true ↔
    ∃ d ∈ Map.vals home.devices, d.id = D ∧ ∃ A : AreaId,
      (Rooms.of home wanted).has (.area A) = true ∧
        (home.settings.devices[D]?).bind (fun saved => saved.area.area) = some A := by
  unfold Rooms.has
  rw [decide_eq_true_iff]
  refine List.mem_toFinset.trans (List.mem_map.trans ⟨?_, ?_⟩)
  · rintro ⟨d, hd, rfl⟩
    obtain ⟨hd, hany⟩ := List.mem_filter.mp hd
    obtain ⟨A, hA, hin⟩ := (Option.any_eq_true _ _).mp hany
    exact ⟨d, hd, rfl, A, hin, hA⟩
  · rintro ⟨d, hd, rfl, A, hin, hA⟩
    exact ⟨d, List.mem_filter.mpr ⟨hd, (Option.any_eq_true _ _).mpr ⟨A, hA, hin⟩⟩, rfl⟩

lemma has_entity {E : EntityId} : (Rooms.of home wanted).has (.entity E) = true ↔
    ∃ e ∈ Map.vals home.entities, e.id = E ∧
      match e.areaId with
      | some A => (Rooms.of home wanted).has (.area A) = true
      | none => ∃ D : DeviceId, e.deviceId = some D ∧
          (Rooms.of home wanted).has (.device D) = true := by
  unfold Rooms.has
  rw [decide_eq_true_iff]
  refine List.mem_toFinset.trans (List.mem_map.trans ⟨?_, ?_⟩)
  · rintro ⟨e, he, rfl⟩
    obtain ⟨he, hroom⟩ := List.mem_filter.mp he
    refine ⟨e, he, rfl, ?_⟩
    cases harea : e.areaId with
    | some A =>
      rw [harea] at hroom
      exact hroom
    | none =>
      rw [harea] at hroom
      exact (Option.any_eq_true _ _).mp hroom
  · rintro ⟨e, he, rfl, hroom⟩
    refine ⟨e, List.mem_filter.mpr ⟨he, ?_⟩, rfl⟩
    cases harea : e.areaId with
    | some A =>
      rw [harea] at hroom
      exact hroom
    | none =>
      rw [harea] at hroom
      exact (Option.any_eq_true _ _).mpr hroom

lemma area_id {settings : Settings} {A : AreaId} {area : Area} (h : settings.area A = some area) :
    area.id = A := beq_iff_eq.mp (List.find?_some h :)

lemma InOrder.get_device (h : InOrder kinds home) {d : Device} (hd : d ∈ Map.vals home.devices) :
    home.devices[d.id]? = some d := by
  obtain ⟨D, hD⟩ := Map.mem_vals.mp hd
  rw [h.deviceId D d hD]
  exact hD

lemma InOrder.get_entity (h : InOrder kinds home) {e : Entity κ} (he : e ∈ Map.vals home.entities) :
    home.entities[e.id]? = some e := by
  obtain ⟨E, hE⟩ := Map.mem_vals.mp he
  rw [h.entityId E e hE]
  exact hE

lemma InOrder.get_state (h : InOrder kinds home) {s : EntityState σ} (hs : s ∈ Map.vals home.states) :
    home.states[s.entityId]? = some s := by
  obtain ⟨E, hE⟩ := Map.mem_vals.mp hs
  rw [h.stated E s hE]
  exact hE

lemma inside_cons {rooms : Rooms} {thing : Thing} {things : List Thing} :
    Inside rooms (thing :: things) ↔ rooms.has thing = true ∧ Inside rooms things :=
  List.forall_mem_cons

lemma inside_append {rooms : Rooms} {things more : List Thing} :
    Inside rooms (things ++ more) ↔ Inside rooms things ∧ Inside rooms more :=
  List.forall_mem_append

lemma inside_option {α : Type} {rooms : Rooms} {a : Option α} {thing : α → Thing} :
    Inside rooms (a.toList.map thing) ↔ ∀ x : α, a = some x → rooms.has (thing x) = true := by
  cases a with
  | none => simp [Inside]
  | some x => simp [Inside]

lemma shown_inside (h : InOrder kinds home) {d : Device} (hd : d ∈ Map.vals home.devices)
    (hin : (Rooms.of home wanted).has (.device d.id) = true) :
    Inside (Rooms.of home wanted) ((Reach.rooms (Rooms.of home wanted)).shown d).names := by
  unfold Device.names
  rw [inside_cons, inside_append, inside_option, inside_option]
  refine ⟨hin, fun A hA => ?_, fun V hV => ?_⟩
  · obtain ⟨_, _, _, B, hB, hsaved⟩ := has_device.mp hin
    have hplace := h.placed d.id d (h.get_device hd)
    unfold Home.areaForDevice placed at hplace
    obtain ⟨saved, hsaid, harea⟩ := Option.bind_eq_some_iff.mp hsaved
    rw [hsaid, Option.map_some, Option.getD_some] at hplace
    cases hwhere : saved.area with
    | within C =>
      rw [hwhere] at harea hplace
      have hsame : C = B := Option.some.inj harea
      obtain ⟨area, hthere⟩ := Option.isSome_iff_exists.mp (has_area.mp hB).2
      dsimp only at hplace
      rw [hsame, hthere, Option.map_some, area_id hthere] at hplace
      have hAB : A = B := Option.some.inj ((hA : d.areaId = some A).symm.trans hplace)
      rw [hAB]
      exact hB
    | unsaid =>
      rw [hwhere] at harea
      cases harea
    | nowhere =>
      rw [hwhere] at harea
      cases harea
  · unfold Reach.shown at hV
    dsimp only at hV
    split at hV
    · cases hV
    · next hsees =>
      rw [hV] at hsees
      simpa [Reach.sees] using hsees

lemma names_entity (h : InOrder kinds home) (hkeeps : KeepsInside home plan wanted) {e : Entity κ}
    (he : e ∈ Map.vals home.entities) (hin : (Rooms.of home wanted).has (.entity e.id) = true) :
    Inside (Rooms.of home wanted) e.names := by
  unfold Entity.names
  rw [inside_cons, inside_append, inside_option, inside_option]
  refine ⟨hin, fun D hD => hkeeps.entities e.id e D (h.get_entity he) hin hD, fun A hA => ?_⟩
  obtain ⟨e', he', hid, hroom⟩ := has_entity.mp hin
  have hsame : e' = e := by
    have hget := h.get_entity he'
    rw [hid, h.get_entity he] at hget
    exact (Option.some.inj hget).symm
  rw [hsame, hA] at hroom
  exact hroom

lemma get_floorplan {F : FloorId} : (seenBy home plan wanted).floorplan[F]? =
    if (Rooms.of home wanted).has (.floor F) = true then
      (plan[F]?).map (Reach.rooms (Rooms.of home wanted)).level else none := by
  show (plan.filterMap fun id level => if (Reach.rooms (Rooms.of home wanted)).sees (.floor id) then
    some ((Reach.rooms (Rooms.of home wanted)).level level) else none)[F]? = _
  rw [Std.ExtTreeMap.getElem?_filterMap']
  cases plan[F]? with
  | none => simp
  | some level =>
    rw [Option.bind_some, Option.map_some]
    rfl

lemma inside_level (hkeeps : KeepsInside home plan wanted) {F : FloorId} {level : Level}
    (hlevel : plan[F]? = some level) (hF : (Rooms.of home wanted).has (.floor F) = true) :
    Inside (Rooms.of home wanted) ((Reach.rooms (Rooms.of home wanted)).level level).names := by
  unfold Level.names
  rw [inside_append, inside_append]
  refine ⟨⟨hkeeps.sensors F level hlevel hF, fun thing hthing => ?_⟩, fun thing hthing => ?_⟩
  · obtain ⟨placed, hplaced, rfl⟩ := List.mem_map.mp hthing
    exact (List.mem_filter.mp hplaced).2
  · obtain ⟨placed, hplaced, hnamed⟩ := List.mem_flatMap.mp hthing
    obtain ⟨hthere, hsees⟩ := List.mem_filter.mp hplaced
    have hnames : Inside (Rooms.of home wanted) placed.names := by
      unfold PlacedDevice.names
      rw [inside_append, inside_option, inside_option]
      unfold Reach.seesPlaced at hsees
      refine ⟨fun D hD => ?_, fun E hE => ?_⟩
      · rw [hD] at hsees
        exact hsees
      · cases hD : placed.device with
        | none =>
          rw [hD, hE] at hsees
          exact hsees
        | some D =>
          rw [hD] at hsees
          exact hkeeps.markers F level hlevel hF placed hthere D E hD hE hsees
    exact hnames thing hnamed

lemma confined_of_keeps (h : InOrder kinds home) (hkeeps : KeepsInside home plan wanted) :
    Confined (Rooms.of home wanted) (seenBy home plan wanted) := by
  have hdevices : ∀ d ∈ (seenBy home plan wanted).devices,
      Inside (Rooms.of home wanted) d.names ∧ d.suggestedArea = none := by
    intro d hd
    obtain ⟨before, hbefore, rfl⟩ := List.mem_map.mp hd
    obtain ⟨hthere, hin⟩ := List.mem_filter.mp hbefore
    exact ⟨shown_inside h hthere hin, rfl⟩
  refine ⟨hdevices, fun D d hd => hdevices d (List.mem_of_find?_eq_some hd), fun e he => ?_,
    fun E e he => ?_, fun s hs => ?_, fun E s hs => ?_, fun a ha => ?_, fun f hf => ?_,
    fun F level hlevel => ?_⟩
  · obtain ⟨hthere, hin⟩ := List.mem_filter.mp he
    exact names_entity h hkeeps hthere hin
  · unfold Seen.entity at he
    split at he
    · next hin =>
      refine names_entity h hkeeps (Map.mem_vals.mpr ⟨E, he⟩) ?_
      rw [h.entityId E e he]
      exact hin
    · cases he
  · obtain ⟨_, hin⟩ := List.mem_filter.mp hs
    exact inside_cons.mpr ⟨hin, fun _ hnone => nomatch hnone⟩
  · unfold Seen.state at hs
    split at hs
    · next hin =>
      refine inside_cons.mpr ⟨?_, fun _ hnone => nomatch hnone⟩
      rw [h.stated E s hs]
      exact hin
    · cases hs
  · obtain ⟨hthere, hin⟩ := List.mem_filter.mp ha
    unfold Area.names
    rw [inside_cons, inside_option]
    exact ⟨hin, hkeeps.areas a hthere hin⟩
  · exact (List.mem_filter.mp hf).2
  · rw [get_floorplan] at hlevel
    split at hlevel
    · next hF =>
      obtain ⟨before, hbefore, rfl⟩ := Option.map_eq_some_iff.mp hlevel
      exact ⟨hF, inside_level hkeeps hbefore hF⟩
    · cases hlevel

lemma keeps_of_confined (h : InOrder kinds home)
    (hconfined : Confined (Rooms.of home wanted) (seenBy home plan wanted)) :
    KeepsInside home plan wanted := by
  have hlevel : ∀ {F : FloorId} {level : Level}, plan[F]? = some level →
      (Rooms.of home wanted).has (.floor F) = true →
        Inside (Rooms.of home wanted) ((Reach.rooms (Rooms.of home wanted)).level level).names := by
    intro F level hlevel hF
    refine (hconfined.floorplan F _ ?_).2
    rw [get_floorplan, if_pos hF, hlevel, Option.map_some]
  refine ⟨fun E e D he hin hD => ?_, fun F level hthere hF => ?_,
    fun F level hthere hF placed hplaced D E hD hE hin => ?_, fun a ha hin F hF => ?_⟩
  · have hid := h.entityId E e he
    have hnames := hconfined.entities e (List.mem_filter.mpr ⟨Map.mem_vals.mpr ⟨E, he⟩, by
      rw [hid]
      exact hin⟩)
    unfold Entity.names at hnames
    rw [inside_cons, inside_append, inside_option] at hnames
    exact hnames.2.1 D hD
  · have hnames := hlevel hthere hF
    unfold Level.names at hnames
    rw [inside_append, inside_append] at hnames
    exact hnames.1.1
  · have hnames := hlevel hthere hF
    unfold Level.names at hnames
    rw [inside_append] at hnames
    refine hnames.2 (.entity E) (List.mem_flatMap.mpr ⟨placed, List.mem_filter.mpr ⟨hplaced, ?_⟩, ?_⟩)
    · unfold Reach.seesPlaced
      rw [hD]
      exact hin
    · unfold PlacedDevice.names
      rw [hE]
      exact List.mem_append_right _ (List.mem_singleton_self _)
  · have hnames := hconfined.areas a (List.mem_filter.mpr ⟨ha, hin⟩)
    unfold Area.names at hnames
    rw [inside_cons, inside_option] at hnames
    exact hnames.2 F hF

end

lemma rooms_ext {a b : Rooms} (h : ∀ thing, a.has thing = b.has thing) : a = b := by
  obtain ⟨areas, floors, devices, entities⟩ := a
  obtain ⟨areas', floors', devices', entities'⟩ := b
  have hareas : areas = areas' := Finset.ext fun id => decide_eq_decide.mp (h (.area id))
  have hfloors : floors = floors' := Finset.ext fun id => decide_eq_decide.mp (h (.floor id))
  have hdevices : devices = devices' := Finset.ext fun id => decide_eq_decide.mp (h (.device id))
  have hentities : entities = entities' :=
    Finset.ext fun id => decide_eq_decide.mp (h (.entity id))
  rw [hareas, hfloors, hdevices, hentities]

section

variable {home other : Home κ σ} {wanted : List AreaId} {kinds : Kinds κ σ}
  {plan plan' : Floorplan}

lemma area_same (h : SameInside wanted home other plan plan') {A : AreaId} (hA : A ∈ wanted) :
    other.settings.area A = home.settings.area A := by
  have hfind := congrArg (fun areas => areas.find? fun area : Area => area.id == A) h.areas
  rw [List.find?_filter, List.find?_filter] at hfind
  have hcut : ∀ areas : List Area, areas.find? (fun area =>
      decide (wanted.contains area.id = true ∧ (area.id == A) = true)) =
        areas.find? fun area => area.id == A := by
    intro areas
    congr 1
    funext area
    by_cases hsame : area.id = A
    · simp [hsame, hA]
    · simp [hsame]
  rw [hcut, hcut] at hfind
  exact hfind

lemma rooms_same (h : SameInside wanted home other plan plan') :
    Rooms.of other wanted = Rooms.of home wanted := by
  refine rooms_ext fun thing => Bool.eq_iff_iff.mpr ?_
  cases thing with
  | area A =>
    rw [has_area, has_area]
    refine and_congr_right fun hA => ?_
    rw [area_same h hA]
  | floor F =>
    rw [has_floor, has_floor]
    refine exists_congr fun A => and_congr_right fun hA => ?_
    rw [area_same h hA]
  | device D =>
    constructor
    · intro hin
      obtain ⟨d, hd, rfl, _⟩ := has_device.mp hin
      have hmem : d ∈ (Map.vals other.devices).filter fun d =>
          (Rooms.of other wanted).has (.device d.id) := List.mem_filter.mpr ⟨hd, hin⟩
      rw [h.devices] at hmem
      exact (List.mem_filter.mp hmem).2
    · intro hin
      obtain ⟨d, hd, rfl, _⟩ := has_device.mp hin
      have hmem : d ∈ (Map.vals home.devices).filter fun d =>
          (Rooms.of home wanted).has (.device d.id) := List.mem_filter.mpr ⟨hd, hin⟩
      rw [← h.devices] at hmem
      exact (List.mem_filter.mp hmem).2
  | entity E =>
    constructor
    · intro hin
      obtain ⟨e, he, rfl, _⟩ := has_entity.mp hin
      have hmem : e ∈ (Map.vals other.entities).filter fun e =>
          (Rooms.of other wanted).has (.entity e.id) := List.mem_filter.mpr ⟨he, hin⟩
      rw [h.entities] at hmem
      exact (List.mem_filter.mp hmem).2
    · intro hin
      obtain ⟨e, he, rfl, _⟩ := has_entity.mp hin
      have hmem : e ∈ (Map.vals home.entities).filter fun e =>
          (Rooms.of home wanted).has (.entity e.id) := List.mem_filter.mpr ⟨he, hin⟩
      rw [← h.entities] at hmem
      exact (List.mem_filter.mp hmem).2

lemma devices_same (h : SameInside wanted home other plan plan') :
    (seenBy other plan' wanted).devices = (seenBy home plan wanted).devices := by
  show ((Map.vals other.devices).filter fun d => (Rooms.of other wanted).has (.device d.id)).map
      (Reach.rooms (Rooms.of other wanted)).shown =
    ((Map.vals home.devices).filter fun d => (Rooms.of home wanted).has (.device d.id)).map
      (Reach.rooms (Rooms.of home wanted)).shown
  rw [h.devices, rooms_same h]

lemma entity_iff (horder : InOrder kinds home) {E : EntityId} {e : Entity κ} :
    (seenBy home plan wanted).entity E = some e ↔
      e ∈ (seenBy home plan wanted).entities ∧ e.id = E := by
  unfold Seen.entity
  constructor
  · intro he
    split at he
    · next hin =>
      have hid := horder.entityId E e he
      exact ⟨List.mem_filter.mpr ⟨Map.mem_vals.mpr ⟨E, he⟩, by rw [hid]; exact hin⟩, hid⟩
    · cases he
  · rintro ⟨he, rfl⟩
    obtain ⟨hthere, hin⟩ := List.mem_filter.mp he
    rw [if_pos hin]
    exact horder.get_entity hthere

lemma state_iff (horder : InOrder kinds home) {E : EntityId} {s : EntityState σ} :
    (seenBy home plan wanted).state E = some s ↔
      s ∈ (seenBy home plan wanted).states ∧ s.entityId = E := by
  unfold Seen.state
  constructor
  · intro hs
    split at hs
    · next hin =>
      have hid := horder.stated E s hs
      exact ⟨List.mem_filter.mpr ⟨Map.mem_vals.mpr ⟨E, hs⟩, by rw [hid]; exact hin⟩, hid⟩
    · cases hs
  · rintro ⟨hs, rfl⟩
    obtain ⟨hthere, hin⟩ := List.mem_filter.mp hs
    rw [if_pos hin]
    exact horder.get_state hthere

lemma areas_same (h : SameInside wanted home other plan plan') :
    (seenBy other plan' wanted).areas = (seenBy home plan wanted).areas := by
  have hcut : ∀ areas : List Area, areas.filter (fun a => (Rooms.of home wanted).has (.area a.id)) =
      (areas.filter fun a => wanted.contains a.id).filter fun a =>
        (Rooms.of home wanted).has (.area a.id) := by
    intro areas
    rw [List.filter_filter]
    refine List.filter_congr fun a _ => ?_
    cases hin : (Rooms.of home wanted).has (.area a.id) with
    | false => rfl
    | true => simpa using (has_area.mp hin).1
  show other.settings.areas.filter (fun a => (Rooms.of other wanted).has (.area a.id)) =
    home.settings.areas.filter fun a => (Rooms.of home wanted).has (.area a.id)
  rw [rooms_same h, hcut, h.areas, ← hcut]

lemma floorplan_same (h : SameInside wanted home other plan plan') :
    (seenBy other plan' wanted).floorplan = (seenBy home plan wanted).floorplan := by
  refine Std.ExtTreeMap.ext_getElem? fun F => ?_
  have hplan := h.plan F
  rw [get_floorplan, get_floorplan]
  rw [rooms_same h] at hplan ⊢
  split
  · next hF =>
    have hsame := hplan hF
    cases hother : plan'[F]? with
    | none =>
      rw [hother] at hsame
      cases hhome : plan[F]? with
      | none => rfl
      | some level =>
        rw [hhome] at hsame
        cases hsame
    | some level' =>
      rw [hother] at hsame
      cases hhome : plan[F]? with
      | none =>
        rw [hhome] at hsame
        cases hsame
      | some level =>
        rw [hhome, Option.map_some, Option.map_some, Option.some.injEq] at hsame
        unfold drawn at hsame
        simp only [Prod.mk.injEq] at hsame
        obtain ⟨hwalls, hareas, hdevices⟩ := hsame
        rw [Option.map_some, Option.map_some, Option.some.injEq]
        unfold Reach.level
        rw [hwalls]
        congr 1
  · rfl

lemma sameAnswers (horder : InOrder kinds home) (horder' : InOrder kinds other)
    (h : SameInside wanted home other plan plan') :
    SameAnswers (seenBy home plan wanted) (seenBy other plan' wanted) := by
  refine ⟨devices_same h, fun D => ?_, h.entities, fun E => ?_, h.states, fun E => ?_,
    areas_same h, ?_, floorplan_same h⟩
  · unfold Seen.device
    rw [devices_same h]
  · refine Option.ext fun e => ?_
    rw [entity_iff horder, entity_iff horder']
    exact and_congr_left fun _ => iff_of_eq (congrArg (e ∈ ·) h.entities)
  · refine Option.ext fun s => ?_
    rw [state_iff horder, state_iff horder']
    exact and_congr_left fun _ => iff_of_eq (congrArg (s ∈ ·) h.states)
  · show (other.settings.floors.insertionSort Floor.before).filter
      (fun f => (Rooms.of other wanted).has (.floor f.id)) =
        (home.settings.floors.insertionSort Floor.before).filter
          fun f => (Rooms.of home wanted).has (.floor f.id)
    rw [rooms_same h, h.floors]

/-- What somebody with some rooms is shown names nothing outside them, and depends on nothing outside
them, exactly where nothing in the rooms refers to something that isn't. -/
theorem seenInside_iff (horder : InOrder kinds home) :
    SeenInside kinds home plan wanted ↔ KeepsInside home plan wanted :=
  ⟨fun h => keeps_of_confined horder h.confined, fun h =>
    ⟨confined_of_keeps horder h, fun _ _ horder' hsame => sameAnswers horder horder' hsame⟩⟩

end

namespace Sample

def ground : FloorId := ⟨"ground", by decide⟩
lemma den_slug : checkSlug "area id" "den" = .ok () := by decide

def den : AreaId := ⟨"den", den_slug⟩

def contact : EntityId := ⟨"binary_sensor.attic_door", by decide⟩

def inDen : Settings :=
  { Settings.empty with
    floors := [⟨ground, lamp, 0⟩]
    areas := [⟨den, lamp, some ground⟩]
    devices := (∅ : Map DeviceId DeviceSettings).insert (deviceIdFor demo deviceA)
      ⟨none, none, .within den, true⟩ }

def denHome : Option (Home Ability On) :=
  Home.performAll kinds
    [.describeDevice demo (described deviceA),
      .describeEntity demo [.switch] (nameless relay deviceA .switch) stamp,
      .applySettings inDen stamp] Home.new

/-- The ground floor, with a wall, a door in it, and the den and device `a` on it. -/
def denLevel (sensor : Option EntityId) : Level where
  walls := [⟨⟨0, 0⟩, ⟨300, 0⟩, 10, [⟨.door, 150, 80, .left, .near, sensor⟩]⟩]
  areas := [⟨den, [⟨0, 0⟩, ⟨300, 0⟩, ⟨300, 300⟩], ⟨0, 0⟩, none⟩]
  devices := [⟨some (deviceIdFor demo deviceA), none, ⟨100, 100⟩, none, none, false, none⟩]

def denPlan (sensor : Option EntityId) : Floorplan :=
  (∅ : Floorplan).insert ground (denLevel sensor)

end Sample

lemma get_denPlan {sensor : Option EntityId} {F : FloorId} {level : Level}
    (h : (Sample.denPlan sensor)[F]? = some level) :
    F = Sample.ground ∧ level = Sample.denLevel sensor := by
  rcases Map.get_insert_some h with ⟨hF, hlevel⟩ | ⟨_, hnone⟩
  · exact ⟨hF.symm, hlevel.symm⟩
  · simp at hnone

theorem seenInside_den : ∃ home : Home Sample.Ability Sample.On,
    Reachable Sample.kinds home ∧
      SeenInside Sample.kinds home (Sample.denPlan none) [Sample.den] := by
  have hsome : Sample.denHome.isSome = true := by decide
  obtain ⟨home, hhome⟩ := Option.isSome_iff_exists.mp hsome
  have hreachable : Reachable Sample.kinds home :=
    ComesTo.new.performAll (fun _ _ => trivial) hhome
  refine ⟨home, hreachable, (seenInside_iff (inOrder_of_comesTo hreachable)).mpr ?_⟩
  have hentities : Sample.denHome.all (fun home => (Map.vals home.entities).all fun e =>
      e.deviceId.all fun D => (Rooms.of home [Sample.den]).has (.device D)) = true := by
    decide
  have hareas : Sample.denHome.all (fun home => home.settings.areas.all fun a =>
      a.floorId.all fun F => (Rooms.of home [Sample.den]).has (.floor F)) = true := by
    decide
  rw [hhome, Option.all_some] at hentities hareas
  refine ⟨fun E e D he _ hD => ?_, fun F level hlevel _ => ?_,
    fun F level hlevel _ placed hplaced D E _ hE _ => ?_, fun a ha _ F hF => ?_⟩
  · have hthere := List.all_eq_true.mp hentities e (Map.mem_vals.mpr ⟨E, he⟩)
    rw [hD, Option.all_some] at hthere
    exact hthere
  · obtain ⟨rfl, rfl⟩ := get_denPlan hlevel
    intro thing hthing
    cases hthing
  · obtain ⟨rfl, rfl⟩ := get_denPlan hlevel
    rw [List.mem_singleton.mp hplaced] at hE
    cases hE
  · have hthere := List.all_eq_true.mp hareas a ha
    rw [hF, Option.all_some] at hthere
    exact hthere

/-- The door of the den's floor tells of an entity in another room. -/
theorem not_seenInside_den : ∃ home : Home Sample.Ability Sample.On,
    Reachable Sample.kinds home ∧
      ¬ SeenInside Sample.kinds home (Sample.denPlan (some Sample.contact)) [Sample.den] := by
  have hsome : Sample.denHome.isSome = true := by decide
  obtain ⟨home, hhome⟩ := Option.isSome_iff_exists.mp hsome
  have hreachable : Reachable Sample.kinds home :=
    ComesTo.new.performAll (fun _ _ => trivial) hhome
  have hrooms : Sample.denHome.all (fun home =>
      (Rooms.of home [Sample.den]).has (.floor Sample.ground) &&
        !(Rooms.of home [Sample.den]).has (.entity Sample.contact)) = true := by
    decide
  rw [hhome, Option.all_some, Bool.and_eq_true, Bool.not_eq_true'] at hrooms
  refine ⟨home, hreachable, fun h => ?_⟩
  have hshown : (seenBy home (Sample.denPlan (some Sample.contact)) [Sample.den]).floorplan[
      Sample.ground]? = some ((Reach.rooms (Rooms.of home [Sample.den])).level
        (Sample.denLevel (some Sample.contact))) := by
    rw [get_floorplan, if_pos hrooms.1]
    unfold Sample.denPlan
    rw [Map.get_insert, if_pos rfl]
    rfl
  have hnamed := (h.confined.floorplan _ _ hshown).2 (.entity Sample.contact)
    (List.mem_append_left _ (List.mem_append_left _ List.mem_cons_self))
  rw [hrooms.2] at hnamed
  cases hnamed

end Irori.Core
