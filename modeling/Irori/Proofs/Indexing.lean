import Irori.Zigbee.Index
import Mathlib.Data.List.ReduceOption
import Mathlib.Tactic

/-!
# The topic index is what is described

Each entity is listed once under each topic it listens on, and listens for its availability as the
last config it was accepted with says. Config topics name what was last described on them; all that
is described is named while no config topic changes hands.
-/

namespace Irori.Zigbee.Proofs

section Destutter

variable {α : Type} [DecidableEq α]

lemma mem_destutter' (a x : α) (l : List α) :
    x ∈ List.destutter' (· ≠ ·) a l ↔ x = a ∨ x ∈ l := by
  induction l generalizing a with
  | nil => simp
  | cons b l ih =>
    by_cases hab : a = b
    · subst hab
      rw [List.destutter'_cons_neg _ (by simp), ih]
      simp
    · rw [List.destutter'_cons_pos _ hab]
      simp [ih]

lemma mem_destutter {x : α} {l : List α} : x ∈ l.destutter (· ≠ ·) ↔ x ∈ l := by
  cases l with
  | nil => simp
  | cons a l => rw [List.destutter_cons', mem_destutter', List.mem_cons]

lemma nodup_destutter [LinearOrder α] {l : List α} (h : l.Pairwise (· ≤ ·)) :
    (l.destutter (· ≠ ·)).Nodup := by
  have hle : (l.destutter (· ≠ ·)).Pairwise (· ≤ ·) := h.sublist (List.destutter_sublist _ l)
  have hne : (l.destutter (· ≠ ·)).IsChain (· ≠ ·) := List.isChain_destutter _ l
  have hlt : (l.destutter (· ≠ ·)).IsChain (· < ·) := by
    rw [List.isChain_iff_getElem] at hne ⊢
    exact fun i hi => lt_of_le_of_ne (hle.isChain.getElem i hi) (hne i hi)
  exact (List.isChain_iff_pairwise.1 hlt).imp ne_of_lt

end Destutter

def topicNames (uniqueId : UniqueId) (topics : EntityTopics) : List String :=
  (topicsOf uniqueId topics).map Prod.fst

lemma topicsOf_eq (uniqueId : UniqueId) (topics : EntityTopics) :
    topicsOf uniqueId topics =
      (topicNames uniqueId topics).map fun topic => (topic, uniqueId) := by
  simp [topicNames, topicsOf, Function.comp_def]

lemma mem_topicNames {uniqueId : UniqueId} {topics : EntityTopics} {topic : String} :
    topic ∈ topicNames uniqueId topics ↔ topic ∈ heardOn topics := by
  have hnames : topicNames uniqueId topics =
      ((heardOn topics).mergeSort fun a b => decide (a ≤ b)).destutter (· ≠ ·) := by
    simp [topicNames, topicsOf, Function.comp_def]
  rw [hnames, mem_destutter, List.mem_mergeSort]

lemma topicNames_nodup (uniqueId : UniqueId) (topics : EntityTopics) :
    (topicNames uniqueId topics).Nodup := by
  have hsorted (list : List String) :
      (list.mergeSort fun a b => decide (a ≤ b)).Pairwise (· ≤ ·) := by
    have htrans (a b c : String) (hab : decide (a ≤ b) = true) (hbc : decide (b ≤ c) = true) :
        decide (a ≤ c) = true :=
      decide_eq_true (le_trans (of_decide_eq_true hab) (of_decide_eq_true hbc))
    have htotal (a b : String) : (decide (a ≤ b) || decide (b ≤ a)) = true := by
      simpa using le_total a b
    simpa using List.pairwise_mergeSort htrans htotal list
  unfold topicNames topicsOf
  simp only [List.map_map, Function.comp_def, List.map_id']
  exact nodup_destutter (hsorted _)

section Decode

variable {π σ : Type} {message : Message π}

lemma on_iff {topic : Option String} : message.on topic = true ↔ topic = some message.topic := by
  simp [Message.on]

lemma onAny_iff {readings : List Reading} :
    message.onAny readings = true ↔ message.topic ∈ readings.map Reading.topic := by
  simp [Message.onAny]

lemma heardOn_only {stateTopic topic : String} (h : stateTopic = topic) : topic ∈ [stateTopic] :=
  List.mem_singleton.2 h.symm

lemma hears_mem {topics : EntityTopics} (h : hears message topics = true) :
    message.topic ∈ heardOn topics := by
  cases topics with
  | light topics =>
    cases topics with
    | json stateTopic => simpa [hears, heardOn, LightTopics.listens, eq_comm] using h
    | default stateTopic brightnessStateTopic =>
      simp only [hears, Bool.or_eq_true, on_iff] at h
      simpa [heardOn, LightTopics.listens, List.reduceOption_mem_iff, eq_comm] using h
  | switch stateTopic => simpa [hears, heardOn, on_iff] using h
  | number stateTopic => simpa [hears, heardOn, on_iff] using h
  | select stateTopic => simpa [hears, heardOn, on_iff] using h
  | text stateTopic => simpa [hears, heardOn, on_iff] using h
  | lock stateTopic => simpa [hears, heardOn, on_iff] using h
  | moment stateTopic => simpa [hears, heardOn, on_iff] using h
  | vacuum stateTopic => simpa [hears, heardOn, on_iff] using h
  | lawnMower stateTopic => simpa [hears, heardOn, on_iff] using h
  | siren stateTopic => simpa [hears, heardOn, on_iff] using h
  | sensor stateTopic => exact heardOn_only (Option.some.inj (on_iff.1 h))
  | binarySensor stateTopic => exact heardOn_only (Option.some.inj (on_iff.1 h))
  | event stateTopic => exact heardOn_only (Option.some.inj (on_iff.1 h))
  | alarmControlPanel stateTopic => exact heardOn_only (Option.some.inj (on_iff.1 h))
  | button => cases h
  | scene => cases h
  | deviceTracker tracker => simpa [hears, heardOn, on_iff] using h
  | cover cover =>
    simp only [hears, Bool.or_eq_true, on_iff, List.contains_iff_mem] at h
    simpa [heardOn, CoverTopics.listens, or_comm] using h
  | valve valve => simpa [hears, heardOn] using h
  | update update =>
    simp only [hears, Bool.or_eq_true, on_iff] at h
    simp only [heardOn, UpdateTopics.listens, List.mem_append, Option.mem_toList]
    tauto
  | fan fan => exact onAny_iff.1 h
  | climate climate => exact onAny_iff.1 h
  | waterHeater heater => exact onAny_iff.1 h
  | humidifier humidifier => exact onAny_iff.1 h

lemma decode_mem {reads : EntityTopics → Message π → Option σ → Option (Except String σ)}
    {topics : EntityTopics} {previous : Option σ}
    (h : decode reads topics message previous ≠ none) (uniqueId : UniqueId) :
    message.topic ∈ topicNames uniqueId topics := by
  unfold decode at h
  split_ifs at h with hhears
  · exact mem_topicNames.2 (hears_mem hhears)
  · exact absurd rfl h

end Decode

section Lists

variable {α : Type}

def under (lists : Map String (List α)) (topic : String) : List α := (lists[topic]?).getD []

lemma under_push (lists : Map String (List α)) (topic topic' : String) (item : α) :
    under (push lists topic item) topic' =
      under lists topic' ++ if topic = topic' then [item] else [] := by
  unfold under push
  rw [Map.get_insert]
  split_ifs with h
  · subst h
    rfl
  · simp

lemma under_pushAll {β : Type} (topicOf : β → String) (itemOf : β → α) (items : List β)
    (lists : Map String (List α)) (topic : String) :
    under (items.foldl (fun lists item => push lists (topicOf item) (itemOf item)) lists) topic =
      under lists topic ++ (items.filter fun item => topicOf item = topic).map itemOf := by
  induction items generalizing lists with
  | nil => simp
  | cons item items ih =>
    rw [List.foldl_cons, ih, under_push, List.append_assoc]
    by_cases h : topicOf item = topic <;> simp [h]

lemma under_unlist (uniqueId : UniqueId) (lists : Map String (List UniqueId))
    (topic topic' : String) :
    under (unlist uniqueId lists topic) topic' =
      if topic = topic' then (under lists topic').filter (· ≠ uniqueId)
      else under lists topic' := by
  unfold under unlist
  cases hids : lists[topic]? with
  | none =>
    dsimp only
    split_ifs with h
    · subst h
      simp [hids]
    · rfl
  | some ids =>
    dsimp only
    by_cases hempty : (ids.filter (· ≠ uniqueId)).isEmpty = true
    · rw [if_pos hempty, Map.get_erase]
      split_ifs with h
      · subst h
        have hnil := List.isEmpty_iff.1 hempty
        simp only [hids, Option.getD_none, Option.getD_some, hnil]
      · rfl
    · rw [if_neg hempty, Map.get_insert]
      split_ifs with h
      · subst h
        simp only [hids, Option.getD_some]
      · rfl

lemma count_unlistAll (uniqueId id : UniqueId) (topics : List String)
    (lists : Map String (List UniqueId)) (topic : String) :
    (under (topics.foldl (fun lists topic => unlist uniqueId lists topic) lists) topic).count id =
      if id = uniqueId ∧ topic ∈ topics then 0 else (under lists topic).count id := by
  induction topics generalizing lists with
  | nil => simp
  | cons first topics ih =>
    rw [List.foldl_cons, ih, under_unlist]
    by_cases hid : id = uniqueId
    · subst hid
      by_cases hmem : topic ∈ topics
      · simp [hmem]
      · by_cases hfirst : first = topic
        · subst hfirst
          simp [hmem, List.count_eq_zero]
        · have hfirst' : topic ≠ first := fun h => hfirst h.symm
          simp [hmem, hfirst, hfirst']
    · by_cases hfirst : first = topic
      · simp [hid, hfirst, List.count_filter]
      · simp [hid, hfirst]

end Lists

abbrev Accepted := UniqueId → Option (String × ParsedConfig)

def topicsIn (registry : Registry) (id : UniqueId) : List String :=
  match registry.entities[id]? with
  | none => []
  | some entity => topicNames id entity.topics

def listener (id : UniqueId) (offered : AvailabilityTopic) : Listener :=
  ⟨id, offered.payloadAvailable, offered.payloadNotAvailable⟩

/-- How an entity there is listens on an availability topic, by the config it was accepted with. -/
def listenersIn (accepted : Accepted) (registry : Registry) (id : UniqueId) (topic : String) :
    List Listener :=
  match registry.entities[id]?, accepted id with
  | some _, some (_, parsed) =>
    (parsed.availability.filter fun offered => offered.topic = topic).map (listener id)
  | _, _ => []

def ofEntity (id : UniqueId) (listeners : List Listener) : List Listener :=
  listeners.filter fun listener => listener.uniqueId = id

structure Indexed (accepted : Accepted) (registry : Registry) : Prop where
  entity : ∀ id entity, registry.entities[id]? = some entity →
    ∃ topic parsed, accepted id = some (topic, parsed) ∧ entity = ⟨parsed.device, parsed.topics⟩
  state : ∀ topic id,
    (under registry.stateTopics topic).count id = (topicsIn registry id).count topic
  availability : ∀ topic id,
    ofEntity id (under registry.availabilityTopics topic) = listenersIn accepted registry id topic
  config : ∀ topic id, registry.configTopics[topic]? = some id →
    (registry.entities[id]?).isSome ∧ ∃ parsed, accepted id = some (topic, parsed)

/-- Every entity there is has the config topic that described it last. -/
def Named (accepted : Accepted) (registry : Registry) : Prop :=
  ∀ id topic parsed, (registry.entities[id]?).isSome → accepted id = some (topic, parsed) →
    registry.configTopics[topic]? = some id

variable {accepted : Accepted} {registry : Registry}

lemma empty_indexed : Indexed accepted .empty where
  entity id entity h := by simp [Registry.empty] at h
  state topic id := by simp [Registry.empty, under, topicsIn]
  availability topic id := by simp [Registry.empty, under, ofEntity, listenersIn]
  config topic id h := by simp [Registry.empty] at h

lemma Indexed.uncleared (h : Indexed accepted registry) (topic : String) :
    Indexed accepted { registry with configTopics := registry.configTopics.erase topic } where
  entity := h.entity
  state := h.state
  availability := h.availability
  config topic' id hid := by
    rw [Map.get_erase] at hid
    split_ifs at hid
    exact h.config topic' id hid

lemma forget_entities (uniqueId : UniqueId) (registry : Registry) (id : UniqueId) :
    (forget uniqueId registry).entities[id]? =
      if uniqueId = id then none else registry.entities[id]? := by
  unfold forget
  cases hold : registry.entities[uniqueId]? with
  | none =>
    dsimp only
    split_ifs with h
    · rw [← h, hold]
    · rfl
  | some old => exact Map.get_erase _ _ _

lemma under_dropped (uniqueId : UniqueId) (lists : Map String (List Listener)) (topic : String) :
    under ((lists.map fun _ (listeners : List Listener) =>
      listeners.filter fun listener => listener.uniqueId ≠ uniqueId).filter
        fun _ listeners => !listeners.isEmpty) topic =
      (under lists topic).filter fun listener => listener.uniqueId ≠ uniqueId := by
  unfold under
  rw [Std.ExtTreeMap.getElem?_filter', Std.ExtTreeMap.getElem?_map]
  cases lists[topic]? with
  | none => rfl
  | some listeners =>
    simp only [Option.map_some, Option.getD_some, Option.filter_some]
    split_ifs with h
    · rfl
    · rw [Bool.not_eq_true, Bool.not_eq_false'] at h
      exact (List.isEmpty_iff.1 h).symm

lemma ofEntity_dropped (uniqueId id : UniqueId) (listeners : List Listener) :
    ofEntity id (listeners.filter fun listener => listener.uniqueId ≠ uniqueId) =
      if uniqueId = id then [] else ofEntity id listeners := by
  unfold ofEntity
  rw [List.filter_filter]
  split_ifs with h
  · refine List.filter_eq_nil_iff.2 fun listener _ => ?_
    simp [h]
  · refine List.filter_congr fun listener _ => ?_
    by_cases hlistener : listener.uniqueId = id
    · have hne : id ≠ uniqueId := fun heq => h heq.symm
      simp [hlistener, hne]
    · simp [hlistener]

lemma forget_indexed (h : Indexed accepted registry) (uniqueId : UniqueId) :
    Indexed accepted (forget uniqueId registry) := by
  cases hold : registry.entities[uniqueId]? with
  | none =>
    have hsame : forget uniqueId registry = registry := by
      unfold forget
      rw [hold]
    rw [hsame]
    exact h
  | some old =>
    have hforget : forget uniqueId registry = deindex uniqueId old.topics
        { registry with entities := registry.entities.erase uniqueId } := by
      unfold forget
      rw [hold]
    have hentities := forget_entities uniqueId registry
    have htopics (id : UniqueId) : topicsIn (forget uniqueId registry) id =
        if uniqueId = id then [] else topicsIn registry id := by
      unfold topicsIn
      rw [hentities]
      split_ifs <;> rfl
    refine ⟨fun id entity hid => ?_, fun topic id => ?_, fun topic id => ?_, fun topic id hid => ?_⟩
    · rw [hentities] at hid
      split_ifs at hid
      exact h.entity id entity hid
    · have hstate : (forget uniqueId registry).stateTopics =
          (topicNames uniqueId old.topics).foldl
            (fun lists topic => unlist uniqueId lists topic) registry.stateTopics := by
        rw [hforget]
        unfold deindex
        rw [topicsOf_eq, List.foldl_map]
      rw [hstate, count_unlistAll, htopics, h.state]
      by_cases hid : uniqueId = id
      · subst hid
        have hmine : topicsIn registry uniqueId = topicNames uniqueId old.topics := by
          unfold topicsIn
          rw [hold]
        by_cases hmem : topic ∈ topicNames uniqueId old.topics
        · simp [hmem]
        · simp [hmem, hmine, List.count_eq_zero]
      · have hne : id ≠ uniqueId := fun heq => hid heq.symm
        simp [hid, hne]
    · have havailability : under (forget uniqueId registry).availabilityTopics topic =
          (under registry.availabilityTopics topic).filter
            fun listener => listener.uniqueId ≠ uniqueId := by
        rw [hforget]
        exact under_dropped uniqueId registry.availabilityTopics topic
      rw [havailability, ofEntity_dropped]
      unfold listenersIn
      rw [hentities]
      split_ifs with hid
      · rfl
      · exact h.availability topic id
    · have hconfig :
          (registry.configTopics[topic]?).filter (fun id => id ≠ uniqueId) = some id := by
        rw [hforget] at hid
        unfold deindex at hid
        rwa [Std.ExtTreeMap.getElem?_filter'] at hid
      obtain ⟨hsome, hne⟩ := Option.filter_eq_some_iff.1 hconfig
      have hne : uniqueId ≠ id := fun heq => by simp [heq] at hne
      rw [hentities, if_neg hne]
      exact h.config topic id hsome

lemma forget_named (h : Named accepted registry) (uniqueId : UniqueId) :
    Named accepted (forget uniqueId registry) := by
  intro id topic parsed hpresent haccepted
  rw [forget_entities] at hpresent
  split_ifs at hpresent with hid
  · cases hpresent
  · have hconfig := h id topic parsed hpresent haccepted
    unfold forget
    cases registry.entities[uniqueId]? with
    | none => exact hconfig
    | some old =>
      have hne : id ≠ uniqueId := fun heq => hid heq.symm
      unfold deindex
      dsimp only
      rw [Std.ExtTreeMap.getElem?_filter', hconfig]
      simp [hne]

def accept (accepted : Accepted) (topic : String) (parsed : ParsedConfig) : Accepted :=
  fun id => if parsed.uniqueId = id then some (topic, parsed) else accepted id

section Register

variable (topic : String) (parsed : ParsedConfig) (registry : Registry)

lemma register_entities (id : UniqueId) :
    (register topic parsed registry).entities[id]? =
      if parsed.uniqueId = id then some ⟨parsed.device, parsed.topics⟩
      else registry.entities[id]? := by
  unfold register
  dsimp only
  rw [Map.get_insert, forget_entities]
  split_ifs <;> rfl

lemma register_state (topic' : String) :
    under (register topic parsed registry).stateTopics topic' =
      under (forget parsed.uniqueId registry).stateTopics topic' ++
        List.replicate ((topicNames parsed.uniqueId parsed.topics).count topic')
          parsed.uniqueId := by
  unfold register
  dsimp only
  rw [topicsOf_eq, List.foldl_map,
    under_pushAll (fun topic => topic) (fun _ => parsed.uniqueId), List.map_const',
    List.count_eq_length_filter]
  rfl

lemma register_availability (topic' : String) :
    under (register topic parsed registry).availabilityTopics topic' =
      under (forget parsed.uniqueId registry).availabilityTopics topic' ++
        (parsed.availability.filter fun offered => offered.topic = topic').map
          (listener parsed.uniqueId) := by
  unfold register
  exact under_pushAll AvailabilityTopic.topic (listener parsed.uniqueId) parsed.availability
    (forget parsed.uniqueId registry).availabilityTopics topic'

lemma ofEntity_append (id : UniqueId) (listeners listeners' : List Listener) :
    ofEntity id (listeners ++ listeners') = ofEntity id listeners ++ ofEntity id listeners' :=
  List.filter_append _ _

lemma ofEntity_offered (uniqueId id : UniqueId) (offered : List AvailabilityTopic) :
    ofEntity id (offered.map (listener uniqueId)) =
      if uniqueId = id then offered.map (listener uniqueId) else [] := by
  unfold ofEntity
  split_ifs with h
  · exact List.filter_eq_self.2 fun listener' hmem => by
      obtain ⟨offered', -, rfl⟩ := List.mem_map.1 hmem
      exact decide_eq_true h
  · exact List.filter_eq_nil_iff.2 fun listener' hmem => by
      obtain ⟨offered', -, rfl⟩ := List.mem_map.1 hmem
      simp [listener, h]

end Register

lemma register_indexed (h : Indexed accepted registry) (topic : String) (parsed : ParsedConfig) :
    Indexed (accept accepted topic parsed) (register topic parsed registry) := by
  have hforgot := forget_indexed h parsed.uniqueId
  have hentities := register_entities topic parsed registry
  refine ⟨fun id entity hid => ?_, fun topic' id => ?_, fun topic' id => ?_,
    fun topic' id hid => ?_⟩
  · rw [hentities] at hid
    unfold accept
    split_ifs at hid ⊢ with hcase
    · cases hid
      exact ⟨topic, parsed, rfl, rfl⟩
    · exact h.entity id entity hid
  · rw [register_state, List.count_append, hforgot.state, List.count_replicate]
    unfold topicsIn
    rw [hentities, forget_entities]
    by_cases hcase : parsed.uniqueId = id
    · subst hcase
      simp
    · have hne : ¬id = parsed.uniqueId := fun heq => hcase heq.symm
      simp [hcase]
  · rw [register_availability, ofEntity_append, hforgot.availability, ofEntity_offered]
    unfold listenersIn accept
    rw [hentities, forget_entities]
    by_cases hcase : parsed.uniqueId = id
    · subst hcase
      simp
    · simp [hcase]
  · have hconfig : (register topic parsed registry).configTopics[topic']? =
        if topic = topic' then some parsed.uniqueId
        else (forget parsed.uniqueId registry).configTopics[topic']? := Map.get_insert _ _ _ _
    rw [hconfig] at hid
    rw [hentities]
    unfold accept
    split_ifs at hid with htopic
    · cases hid
      subst htopic
      simp
    · obtain ⟨hpresent, parsed', haccepted⟩ := hforgot.config topic' id hid
      rw [forget_entities] at hpresent
      split_ifs at hpresent with hcase
      · cases hpresent
      · rw [if_neg hcase, if_neg hcase]
        exact ⟨hpresent, parsed', haccepted⟩

lemma register_named (h : Named accepted registry) {topic : String} {parsed : ParsedConfig}
    (hfree : ∀ id, registry.configTopics[topic]? = some id → id = parsed.uniqueId) :
    Named (accept accepted topic parsed) (register topic parsed registry) := by
  intro id topic' parsed' hpresent haccepted
  have hconfig : (register topic parsed registry).configTopics[topic']? =
      if topic = topic' then some parsed.uniqueId
      else (forget parsed.uniqueId registry).configTopics[topic']? := Map.get_insert _ _ _ _
  rw [hconfig]
  unfold accept at haccepted
  rw [register_entities] at hpresent
  split_ifs at haccepted hpresent with hcase
  · cases haccepted
    rw [if_pos rfl, hcase]
  · have hother := h id topic' parsed' hpresent haccepted
    have hkept := forget_named h parsed.uniqueId id topic' parsed'
      (by rwa [forget_entities, if_neg hcase]) haccepted
    split_ifs with htopic
    · subst htopic
      exact absurd (hfree id hother).symm hcase
    · exact hkept

/-- The topic and the config the core takes from an event, if it takes one. -/
def accepts : Event → Option (String × ParsedConfig)
  | .config topic (.ok parsed) device entity =>
    if (parsed.device.isSome && !device) || !entity then none else some (topic, parsed)
  | _ => none

def lastAccepted (events : List Event) : Accepted :=
  (events.filterMap accepts).foldl (fun accepted (topic, parsed) => accept accepted topic parsed)
    fun _ => none

lemma lastAccepted_append (events : List Event) (event : Event) :
    lastAccepted (events ++ [event]) = match accepts event with
      | none => lastAccepted events
      | some (topic, parsed) => accept (lastAccepted events) topic parsed := by
  unfold lastAccepted
  rw [List.filterMap_append, List.foldl_append]
  cases h : accepts event with
  | none => simp [h]
  | some taken => simp [h]

/-- The config topic an event's config comes on isn't another entity's. -/
def Free (registry : Registry) (event : Event) : Prop :=
  ∀ topic parsed, accepts event = some (topic, parsed) →
    ∀ id, registry.configTopics[topic]? = some id → id = parsed.uniqueId

lemma describe_eq (topic : String) (parsed : Except String ParsedConfig) (device entity : Bool)
    (registry : Registry) :
    describe topic parsed device entity registry =
      match accepts (.config topic parsed device entity) with
      | none => registry
      | some (topic, parsed) => register topic parsed registry := by
  cases parsed with
  | error e => rfl
  | ok parsed =>
    unfold describe accepts
    dsimp only
    by_cases hdevice : (parsed.device.isSome && !device) = true
    · simp [hdevice]
    · by_cases hentity : entity = true <;> simp [hdevice, hentity]

lemma clear_indexed (h : Indexed accepted registry) (topic : String) :
    Indexed accepted (clear topic registry) := by
  unfold clear
  cases registry.configTopics[topic]? with
  | none => exact h
  | some id => exact forget_indexed (h.uncleared topic) id

lemma clear_entities (topic : String) (registry : Registry) (id : UniqueId) :
    (clear topic registry).entities[id]? =
      if registry.configTopics[topic]? = some id then none else registry.entities[id]? := by
  unfold clear
  cases registry.configTopics[topic]? with
  | none => simp
  | some uniqueId => simp [forget_entities]

lemma clear_named (h : Named accepted registry) (topic : String) :
    Named accepted (clear topic registry) := by
  unfold clear
  cases hid : registry.configTopics[topic]? with
  | none => exact h
  | some uniqueId =>
    intro id topic' parsed hpresent haccepted
    rw [forget_entities] at hpresent
    split_ifs at hpresent with hcase
    · cases hpresent
    · have hconfig := h id topic' parsed hpresent haccepted
      have hne : topic ≠ topic' := by
        rintro rfl
        rw [hid] at hconfig
        exact hcase (Option.some.inj hconfig)
      have hne' : id ≠ uniqueId := fun heq => hcase heq.symm
      dsimp only
      unfold forget
      dsimp only
      cases registry.entities[uniqueId]? with
      | none =>
        dsimp only
        rw [Map.get_erase, if_neg hne, hconfig]
      | some old =>
        unfold deindex
        dsimp only
        rw [Std.ExtTreeMap.getElem?_filter', Map.get_erase, if_neg hne, hconfig]
        simp [hne']

lemma forgetAll_keeps {P : Registry → Prop}
    (hforget : ∀ registry uniqueId, P registry → P (forget uniqueId registry))
    (ids : List UniqueId) (registry : Registry) (h : P registry) :
    P (ids.foldl (fun registry uniqueId => forget uniqueId registry) registry) := by
  induction ids generalizing registry with
  | nil => exact h
  | cons id ids ih => exact ih _ (hforget registry id h)

lemma unpaired_keeps {P : Registry → Prop}
    (hforget : ∀ registry uniqueId, P registry → P (forget uniqueId registry))
    (hunpairs : ∀ registry unpairs, P registry → P { registry with unpairs })
    (transaction : Option String) (outcome : Except String Unit) (h : P registry) :
    P (unpaired transaction outcome registry) := by
  unfold unpaired
  cases transaction with
  | none => exact h
  | some transaction =>
    dsimp only [Option.bind_some]
    cases registry.unpairs[transaction]? with
    | none => exact h
    | some device =>
      have hanswered := hunpairs registry (registry.unpairs.erase transaction) h
      cases outcome with
      | error e => exact hanswered
      | ok _ => exact forgetAll_keeps hforget _ _ hanswered

lemma Indexed.unpairs (h : Indexed accepted registry) (unpairs : Map String UniqueId) :
    Indexed accepted { registry with unpairs } := ⟨h.entity, h.state, h.availability, h.config⟩

lemma step_indexed {events : List Event} (h : Indexed (lastAccepted events) registry)
    (event : Event) : Indexed (lastAccepted (events ++ [event])) (step registry event) := by
  rw [lastAccepted_append]
  cases event with
  | config topic parsed device entity =>
    dsimp only [step]
    rw [describe_eq]
    cases accepts (.config topic parsed device entity) with
    | none => exact h
    | some taken => exact register_indexed h taken.1 taken.2
  | cleared topic => exact clear_indexed h topic
  | unpair transaction device => exact h.unpairs _
  | response transaction outcome =>
    exact unpaired_keeps (P := Indexed (lastAccepted events))
      (fun _ uniqueId h => forget_indexed h uniqueId) (fun _ unpairs h => h.unpairs unpairs)
      transaction outcome h

lemma step_named {events : List Event} (h : Named (lastAccepted events) registry) {event : Event}
    (hfree : Free registry event) :
    Named (lastAccepted (events ++ [event])) (step registry event) := by
  rw [lastAccepted_append]
  cases event with
  | config topic parsed device entity =>
    dsimp only [step]
    rw [describe_eq]
    cases htaken : accepts (.config topic parsed device entity) with
    | none => exact h
    | some taken => exact register_named h (hfree taken.1 taken.2 htaken)
  | cleared topic => exact clear_named h topic
  | unpair transaction device => exact h
  | response transaction outcome =>
    exact unpaired_keeps (P := Named (lastAccepted events))
      (fun _ uniqueId h => forget_named h uniqueId) (fun _ _ h => h) transaction outcome h

lemma run_append (events : List Event) (event : Event) :
    run .empty (events ++ [event]) = step (run .empty events) event := by
  simp [run]

lemma run_keeps (events : List Event) : Indexed (lastAccepted events) (run .empty events) := by
  induction events using List.reverseRecOn with
  | nil => exact empty_indexed
  | append_singleton events event ih =>
    rw [run_append]
    exact step_indexed ih event

lemma run_named (events : List Event)
    (hfree : ∀ before event after, events = before ++ event :: after →
      Free (run .empty before) event) : Named (lastAccepted events) (run .empty events) := by
  induction events using List.reverseRecOn with
  | nil => exact fun id topic parsed h => by simp [run, Registry.empty] at h
  | append_singleton events event ih =>
    rw [run_append]
    refine step_named (ih fun before event' after heq => ?_) (hfree events event [] rfl)
    exact hfree before event' (after ++ [event]) (by simp [heq])

def hall : String := "homeassistant/light/hall/config"
def lamp : UniqueId := ⟨"0x01_light", by decide⟩
def plug : UniqueId := ⟨"0x02_light", by decide⟩

def described (topic : String) (id : UniqueId) (stateTopic : String) : Event :=
  .config topic (.ok ⟨id, none, .switch (some stateTopic), []⟩) true true

end Irori.Zigbee.Proofs
