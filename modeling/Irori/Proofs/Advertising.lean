import Irori.SwitchBot.World

/-!
# What a SwitchBot device's reports say

The bolt, door, contact and leak of a home are what its safety rests on. A report says one of them
where its handle and value do, and what it says is what the device's reading has. Nothing but an
advert and an answer of the cloud changes a reading.
-/

namespace Irori

namespace SwitchBot

inductive Aspect
  | bolt
  | door
  | contact
  | leak
  deriving DecidableEq

inductive Word
  | bolt (bolt : Bolt)
  | is (yes : Bool)
  deriving DecidableEq

def Reading.word (reading : Reading) : Aspect → Option Word
  | .bolt => reading.bolt.map .bolt
  | .door => reading.doorOpen.map .is
  | .contact => reading.contactOpen.map .is
  | .leak => reading.leak.map .is

def boltOf : LockStatus → Bolt
  | .locked => .locked
  | .unlocked => .unlocked
  | .locking => .locking
  | .unlocking => .unlocking
  | .jammed => .jammed

def reported (key : String) : State → Option (Aspect × Word)
  | .lock status => if key = "main" then some (.bolt, .bolt (boltOf status)) else none
  | .cover state none none =>
    if key = "main" then some (.door, .is (decide (state = .opened))) else none
  | .binarySensor on =>
    if key = "door" then some (.door, .is on)
    else if key = "contact" then some (.contact, .is on)
    else if key = "leak" then some (.leak, .is on)
    else none
  | _ => none

/-- What comes before the last of a character, and after. -/
def rsplitOnce (c : Char) (text : String) : Option (String × String) :=
  match text.toList.reverse.dropWhile (· ≠ c) with
  | [] => none
  | _ :: before =>
    some (String.ofList before.reverse,
      String.ofList (text.toList.reverse.takeWhile (· ≠ c)).reverse)

def subject (handle : UniqueId) : Option (String × String) := rsplitOnce ':' handle.text

/-- What the core is told of one, and of which device. -/
def Told.word : Told → Option (String × Aspect × Word)
  | .state report =>
    (subject report.uniqueId).bind fun whose =>
      (reported whose.2 report.state).map fun said => (whose.1, said.1, said.2)
  | _ => none

/-! ### Readings -/

@[simp] lemma word_empty (a : Aspect) : Reading.empty.word a = none := by
  cases a <;> rfl

@[simp] lemma word_guarded (reading : Reading) (a : Aspect) :
    (guarded reading).word a = reading.word a := by
  cases a <;> rfl

@[simp] lemma word_unguard (reading : Reading) (a : Aspect) :
    (unguard reading).word a = none := by
  cases a <;> rfl

@[simp] lemma word_merge (reading newer : Reading) (a : Aspect) :
    (reading.merge newer).word a = (newer.word a).or (reading.word a) := by
  cases a <;> simp [Reading.word, Reading.merge, Option.map_or]

/-! ### Values -/

lemma word_of_sensors {key : String} {reading : Reading} {s : State} {a : Aspect} {w : Word}
    (hstate : Sensors.state key reading = some s) (hsaid : reported key s = some (a, w)) :
    reading.word a = some w := by
  unfold Sensors.state at hstate
  split at hstate <;> simp only [Option.map_eq_some_iff, reduceCtorEq] at hstate <;>
    obtain ⟨value, hvalue, rfl⟩ := hstate <;>
    simp [reported] at hsaid <;>
    (obtain ⟨rfl, rfl⟩ := hsaid; simp [Reading.word, hvalue])

lemma word_of_lock {key : String} {reading : Reading} {s : State} {a : Aspect} {w : Word}
    (hstate : Lock.state key reading = some s) (hsaid : reported key s = some (a, w)) :
    reading.word a = some w := by
  unfold Lock.state at hstate
  split at hstate
  · obtain ⟨bolt, hbolt, rfl⟩ := Option.map_eq_some_iff.mp hstate
    simp only [reported, ↓reduceIte, Option.some.injEq, Prod.mk.injEq] at hsaid
    obtain ⟨rfl, rfl⟩ := hsaid
    have hback : boltOf (Lock.status bolt) = bolt := by cases bolt <;> rfl
    simp [Reading.word, hbolt, hback]
  · cases hstate

lemma word_of_power {key : String} {reading : Reading} {s : State} {a : Aspect} {w : Word}
    (hstate : Power.state key reading = some s) (hsaid : reported key s = some (a, w)) :
    reading.word a = some w := by
  unfold Power.state at hstate
  split at hstate <;>
    simp only [Option.map_eq_some_iff, reduceCtorEq] at hstate <;>
    obtain ⟨on, -, rfl⟩ := hstate <;>
    cases hsaid

lemma word_of_cover {family : Family} {key : String} {reading : Reading} {s : State} {a : Aspect}
    {w : Word} (hstate : Cover.state family key reading = some s)
    (hsaid : reported key s = some (a, w)) : reading.word a = some w := by
  unfold Cover.state at hstate
  split at hstate
  · cases hstate
  · split at hstate <;> obtain ⟨value, hvalue, rfl⟩ := Option.map_eq_some_iff.mp hstate
    · simp only [reported, Option.ite_none_right_eq_some, Option.some.injEq, Prod.mk.injEq] at hsaid
      obtain ⟨-, rfl, rfl⟩ := hsaid
      cases value <;> simp [Reading.word, hvalue, Cover.shut]
    · cases hsaid
    · cases hsaid

lemma word_of_humidifier {family : Family} {key : String} {reading : Reading} {s : State}
    {a : Aspect} {w : Word} (hstate : Humidifier.state family key reading = some s)
    (hsaid : reported key s = some (a, w)) : reading.word a = some w := by
  unfold Humidifier.state at hstate
  split at hstate
  · cases hstate
  · obtain ⟨on, -, rfl⟩ := Option.map_eq_some_iff.mp hstate
    cases hsaid

lemma word_of_vacuum {key : String} {reading : Reading} {s : State} {a : Aspect} {w : Word}
    (hstate : Vacuum.state key reading = some s) (hsaid : reported key s = some (a, w)) :
    reading.word a = some w := by
  unfold Vacuum.state at hstate
  split at hstate
  · cases hstate
  · obtain ⟨working, -, rfl⟩ := Option.map_eq_some_iff.mp hstate
    cases hsaid

lemma word_of_state {family : Family} {key : String} {reading : Reading} {s : State} {a : Aspect}
    {w : Word} (hstate : state family key reading = some s)
    (hsaid : reported key s = some (a, w)) : reading.word a = some w := by
  unfold state at hstate
  obtain hown | ⟨-, hshared⟩ := Option.or_eq_some_iff.mp hstate
  · split at hown
    · exact word_of_lock hown hsaid
    · exact word_of_power hown hsaid
    · exact word_of_power hown hsaid
    · exact word_of_power hown hsaid
    · exact word_of_cover hown hsaid
    · exact word_of_cover hown hsaid
    · exact word_of_cover hown hsaid
    · exact word_of_cover hown hsaid
    · exact word_of_humidifier hown hsaid
    · exact word_of_humidifier hown hsaid
    · exact word_of_vacuum hown hsaid
    · cases hown
  · exact word_of_sensors hshared hsaid

/-! ### Handles -/

lemma rsplitOnce_append {c : Char} {device key : String} (hkey : c ∉ key.toList) :
    rsplitOnce c (device ++ String.ofList [c] ++ key) = some (device, key) := by
  have hall : ∀ x ∈ key.toList.reverse, decide (x ≠ c) = true := by
    intro x hx
    simp only [List.mem_reverse] at hx
    simpa using fun h : x = c => hkey (h ▸ hx)
  have htext : (device ++ String.ofList [c] ++ key).toList.reverse =
      key.toList.reverse ++ c :: device.toList.reverse := by
    simp [String.toList_append]
  unfold rsplitOnce
  rw [htext, List.dropWhile_append_of_pos hall, List.takeWhile_append_of_pos hall]
  simp

/-- No key of an entity has a colon in it. -/
def Plain (key : String) : Prop := ':' ∉ key.toList

instance (key : String) : Decidable (Plain key) := inferInstanceAs (Decidable (':' ∉ key.toList))

lemma plain_bot (reading : Reading) : ∀ e ∈ entities .bot reading, Plain e.key := by
  show ∀ e ∈ Power.entities .bot reading, Plain e.key
  unfold Power.entities
  by_cases hmode : Power.switchMode reading = true
  · simp only [hmode]
    decide
  · simp only [Bool.eq_false_iff.mpr hmode]
    decide

lemma entities_of_ne_bot {family : Family} (hbot : family ≠ .bot) (reading : Reading) :
    entities family reading = entities family Reading.empty := by
  cases family with
  | bot => exact absurd rfl hbot
  | _ => rfl

lemma plain_entities (family : Family) (reading : Reading) :
    ∀ e ∈ entities family reading, Plain e.key := by
  by_cases hbot : family = .bot
  · subst hbot
    exact plain_bot reading
  · rw [entities_of_ne_bot hbot reading]
    cases family with
    | bot => exact absurd rfl hbot
    | hub sensors => cases sensors <;> decide
    | meter co2 => cases co2 <;> decide
    | lock door deadbolt => cases door <;> cases deadbolt <;> decide
    | plug meter outlet => cases meter <;> cases outlet <;> decide
    | vacuum api => cases api <;> decide
    | _ => decide

/-! ### Describing and reporting -/

/-- A device is kept under its own id, and its entities' keys are plain. -/
structure Proper (id : String) (known : Known) : Prop where
  id : known.listed.id = id
  keys : ∀ key ∈ known.described, Plain key

structure Same (known known' : Known) : Prop where
  id : known'.listed.id = known.listed.id
  reading : known'.reading = known.reading
  advertSaid : known'.advertSaid = known.advertSaid
  distrusted : known'.distrusted = known.distrusted

structure Unheard (known : Known) : Prop where
  reading : known.reading = Reading.empty
  advertSaid : known.advertSaid = Reading.empty
  distrusted : known.distrusted = false

lemma Same.refl (known : Known) : Same known known := ⟨rfl, rfl, rfl, rfl⟩

lemma Same.trans {a b c : Known} (h : Same a b) (h' : Same b c) : Same a c :=
  ⟨h'.id.trans h.id, h'.reading.trans h.reading, h'.advertSaid.trans h.advertSaid,
    h'.distrusted.trans h.distrusted⟩

lemma Unheard.same {known known' : Known} (h : Unheard known) (hsame : Same known known') :
    Unheard known' :=
  ⟨hsame.reading.trans h.reading, hsame.advertSaid.trans h.advertSaid,
    hsame.distrusted.trans h.distrusted⟩

def Silent (said : List Told) : Prop := ∀ t ∈ said, t.word = none

lemma Silent.append {a b : List Told} (ha : Silent a) (hb : Silent b) : Silent (a ++ b) := by
  intro t ht
  rcases List.mem_append.mp ht with h | h
  · exact ha t h
  · exact hb t h

lemma Silent.filterMap {said : List Told} (h : Silent said) : said.filterMap Told.word = [] :=
  List.filterMap_eq_nil_iff.mpr h

lemma describeEntities_told (device : UniqueId) (known : Known) (list : List Entity)
    (told : List Told) :
    ∃ said, (describeEntities device known list told).2 = told ++ said ∧ Silent said := by
  induction list generalizing told with
  | nil => exact ⟨[], by simp [describeEntities], by simp [Silent]⟩
  | cons entity rest ih =>
    unfold describeEntities
    by_cases hdone : known.described.contains entity.key = true
    · rw [if_pos hdone]
      exact ih told
    · rw [if_neg hdone]
      cases entityId known.listed.id entity.key with
      | none => exact ⟨[], by simp, by simp [Silent]⟩
      | some id =>
        obtain ⟨said, htold, hsilent⟩ :=
          ih (told ++ [.entity ⟨id, entity.name.bind name?, device, entity.category⟩])
        refine ⟨.entity ⟨id, entity.name.bind name?, device, entity.category⟩ :: said, ?_, ?_⟩
        · simpa using htold
        · exact Silent.append (a := [_]) (by simp [Silent, Told.word]) hsilent

lemma removeStale_silent (known : Known) (keys : OrdSet String) :
    Silent (removeStale known keys) := by
  intro t ht
  obtain ⟨key, -, hkey⟩ := List.mem_filterMap.mp ht
  obtain ⟨id, -, rfl⟩ := Option.map_eq_some_iff.mp hkey
  rfl

lemma describe_spec (env : Env) (told : List Told) (known : Known) :
    (∃ said, (describe env told known).2.1 = told ++ said ∧ Silent said) ∧
      Same known (describe env told known).2.2 ∧
      (∀ id, Proper id known → Proper id (describe env told known).2.2) := by
  have hnone : ∃ said, told = told ++ said ∧ Silent said := ⟨[], by simp, by simp [Silent]⟩
  unfold describe
  split
  · rename_i deviceId name hid hname
    dsimp only
    generalize hdevice : Told.device _ = device
    generalize hkeys : (Std.ExtTreeSet.ofList ((entities known.family known.reading).map (·.key))
      compare : OrdSet String) = keys
    have hdeviceSilent : Silent [device] := by simp [Silent, ← hdevice, Told.word]
    split
    · obtain ⟨said, htold, hsilent⟩ := describeEntities_told deviceId
        { known with version := known.reading.version } (entities known.family known.reading)
        (told ++ [device])
      split
      · rename_i told' hdescribed
        rw [hdescribed] at htold
        refine ⟨⟨[device] ++ said ++ removeStale { known with version := known.reading.version }
          keys, ?_, (hdeviceSilent.append hsilent).append (removeStale_silent _ _)⟩,
          ⟨rfl, rfl, rfl, rfl⟩, fun id h => ⟨h.id, fun key hkey => ?_⟩⟩
        · simp only at htold
          simp [htold]
        · have hmem : key ∈ (entities known.family known.reading).map (·.key) := by
            simpa [← hkeys] using hkey
          obtain ⟨e, he, rfl⟩ := List.mem_map.mp hmem
          exact plain_entities _ _ e he
      · rename_i told' hdescribed
        rw [hdescribed] at htold
        refine ⟨⟨[device] ++ said, ?_, hdeviceSilent.append hsilent⟩, ⟨rfl, rfl, rfl, rfl⟩,
          fun id h => ⟨h.id, h.keys⟩⟩
        simp only at htold
        simp [htold]
    · exact ⟨⟨[device], rfl, hdeviceSilent⟩, Same.refl known, fun _ h => h⟩
  · exact ⟨hnone, Same.refl known, fun _ h => h⟩

lemma word_of_report {id : String} {known : Known} (h : Proper id known)
    (causedBy : Option ContextId) (replayed : Bool) :
    ∀ x ∈ (report known causedBy replayed).filterMap Told.word,
      x.1 = id ∧ known.reading.word x.2.1 = some x.2.2 := by
  rintro ⟨device, a, w⟩ hx
  obtain ⟨t, ht, hword⟩ := List.mem_filterMap.mp hx
  obtain ⟨key, hkey, hreport⟩ := List.mem_filterMap.mp ht
  split at hreport
  · rename_i s handle hstate hhandle
    obtain rfl := Option.some.inj hreport
    have htext : handle.text = known.listed.id ++ ":" ++ key := by
      unfold entityId uniqueId? at hhandle
      split at hhandle
      · obtain rfl := Option.some.inj hhandle
        rfl
      · cases hhandle
    have hplain : Plain key := h.keys key (by simpa using hkey)
    have hsubject : subject handle = some (id, key) := by
      unfold subject
      rw [htext, h.id]
      exact rsplitOnce_append hplain
    simp only [Told.word, hsubject, Option.bind_some, Option.map_eq_some_iff, Prod.mk.injEq] at hword
    obtain ⟨said, hsaid, rfl, rfl, rfl⟩ := hword
    exact ⟨rfl, word_of_state hstate hsaid⟩
  · cases hreport

/-! ### What each operation leaves as it was -/

namespace World

/-- Every device is kept under its own id. -/
def Proper (w : World) : Prop :=
  ∀ (id : String) (known : Known), w.devices[id]? = some known → SwitchBot.Proper id known

/-- What is said is what the devices' readings have. -/
def Truthful (w : World) (said : List Told) : Prop :=
  ∀ x ∈ said.filterMap Told.word, ∃ known : Known, w.devices[x.1]? = some known ∧
    known.reading.word x.2.1 = some x.2.2

/-- What more is said by another world is what its readings have. -/
def Tells (w w' : World) : Prop := ∃ said, w'.told = w.told ++ said ∧ w'.Truthful said

/-- Nothing is heard or learnt and no device goes; what comes is new, and one of some. -/
structure Settles (ids : String → Prop) (w w' : World) : Prop where
  cloud : w'.cloud = w.cloud
  proper : w.Proper → w'.Proper
  stays : ∀ (id : String) (known : Known), w.devices[id]? = some known →
    ∃ known' : Known, w'.devices[id]? = some known' ∧ Same known known'
  comes : ∀ (id : String) (known' : Known), w'.devices[id]? = some known' →
    w.devices[id]? = none → ids id ∧ Unheard known'
  tells : w.Proper → Tells w w'

/-- Nothing is heard or learnt, nothing is said of a bolt, a door, a contact or a leak, and only
some devices may go. -/
structure Drops (ids : String → Prop) (w w' : World) : Prop where
  cloud : w'.cloud = w.cloud
  proper : w.Proper → w'.Proper
  was : ∀ (id : String) (known' : Known), w'.devices[id]? = some known' →
    ∃ known : Known, w.devices[id]? = some known ∧ Same known known'
  stays : ∀ (id : String) (known : Known), w.devices[id]? = some known → ¬ids id →
    ∃ known' : Known, w'.devices[id]? = some known'
  told : ∃ said, w'.told = w.told ++ said ∧ Silent said

variable {w w' w'' : World} {ids : String → Prop} {env : Env}

lemma Silent.truthful {said : List Told} (h : Silent said) (w : World) : w.Truthful said := by
  intro x hx
  rw [h.filterMap] at hx
  cases hx

lemma Truthful.append {a b : List Told} (ha : w.Truthful a) (hb : w.Truthful b) :
    w.Truthful (a ++ b) := by
  intro x hx
  rw [List.filterMap_append] at hx
  rcases List.mem_append.mp hx with h | h
  · exact ha x h
  · exact hb x h

lemma Truthful.settles {said : List Told} (h : w.Truthful said) (hsettles : Settles ids w w') :
    w'.Truthful said := by
  intro x hx
  obtain ⟨known, hknown, hword⟩ := h x hx
  obtain ⟨known', hknown', hsame⟩ := hsettles.stays x.1 known hknown
  exact ⟨known', hknown', hsame.reading ▸ hword⟩

lemma Settles.refl (ids : String → Prop) (w : World) : Settles ids w w :=
  ⟨rfl, id, fun _ known h => ⟨known, h, Same.refl known⟩, fun _ _ h h' => by simp [h] at h',
    fun _ => ⟨[], by simp, by simp [Truthful]⟩⟩

lemma Settles.trans (h : Settles ids w w') (h' : Settles ids w' w'') : Settles ids w w'' := by
  refine ⟨h'.cloud.trans h.cloud, fun hw => h'.proper (h.proper hw), ?_, ?_, ?_⟩
  · intro id known hknown
    obtain ⟨known', hknown', hsame⟩ := h.stays id known hknown
    obtain ⟨known'', hknown'', hsame'⟩ := h'.stays id known' hknown'
    exact ⟨known'', hknown'', hsame.trans hsame'⟩
  · intro id known'' hknown'' hnone
    cases hmid : w'.devices[id]? with
    | none => exact h'.comes id known'' hknown'' hmid
    | some known' =>
      obtain ⟨hid, hnew⟩ := h.comes id known' hmid hnone
      obtain ⟨known, hknown, hsame⟩ := h'.stays id known' hmid
      obtain rfl : known = known'' := Option.some.inj (hknown.symm.trans hknown'')
      exact ⟨hid, hnew.same hsame⟩
  · intro hw
    obtain ⟨said, htold, htrue⟩ := h.tells hw
    obtain ⟨said', htold', htrue'⟩ := h'.tells (h.proper hw)
    exact ⟨said ++ said', by rw [htold', htold, List.append_assoc],
      (htrue.settles h').append htrue'⟩

lemma Drops.refl (ids : String → Prop) (w : World) : Drops ids w w :=
  ⟨rfl, id, fun _ known h => ⟨known, h, Same.refl known⟩, fun _ known h _ => ⟨known, h⟩,
    ⟨[], by simp, by simp [Silent]⟩⟩

lemma Drops.trans (h : Drops ids w w') (h' : Drops ids w' w'') : Drops ids w w'' := by
  refine ⟨h'.cloud.trans h.cloud, fun hw => h'.proper (h.proper hw), ?_, ?_, ?_⟩
  · intro id known'' hknown''
    obtain ⟨known', hknown', hsame'⟩ := h'.was id known'' hknown''
    obtain ⟨known, hknown, hsame⟩ := h.was id known' hknown'
    exact ⟨known, hknown, hsame.trans hsame'⟩
  · intro id known hknown hid
    obtain ⟨known', hknown'⟩ := h.stays id known hknown hid
    exact h'.stays id known' hknown' hid
  · obtain ⟨said, htold, hsilent⟩ := h.told
    obtain ⟨said', htold', hsilent'⟩ := h'.told
    exact ⟨said ++ said', by rw [htold', htold, List.append_assoc], hsilent.append hsilent'⟩

/-! ### Availability -/

lemma Settles.of_silent {said : List Told} (hcloud : w'.cloud = w.cloud)
    (hdevices : w'.devices = w.devices) (htold : w'.told = w.told ++ said)
    (hsilent : Silent said) : Settles ids w w' := by
  refine ⟨hcloud, fun hw id known h => hw id known (hdevices ▸ h), fun id known h =>
    ⟨known, hdevices ▸ h, Same.refl known⟩, fun id known h hnone => ?_, fun _ =>
    ⟨said, htold, Silent.truthful hsilent _⟩⟩
  rw [hdevices, hnone] at h
  cases h

lemma Settles.of_eq (hcloud : w'.cloud = w.cloud) (hdevices : w'.devices = w.devices)
    (htold : w'.told = w.told) : Settles ids w w' :=
  Settles.of_silent hcloud hdevices (htold.trans (List.append_nil _).symm) (by simp [Silent])

lemma keep_settles {id : String} {known known' : Known} (hknown : w.devices[id]? = some known)
    (hsame : Same known known') (hproper : SwitchBot.Proper id known → SwitchBot.Proper id known') :
    Settles ids w (w.keep id known') := by
  have hget : ∀ other : String, (w.keep id known').devices[other]? =
      if id = other then some known' else w.devices[other]? := fun other =>
    Map.get_insert w.devices id other known'
  refine ⟨rfl, ?_, ?_, ?_, fun _ => ⟨[], (List.append_nil _).symm, by simp [Truthful]⟩⟩
  · intro hw other k hk
    rw [hget] at hk
    split at hk
    · rename_i hid
      subst hid
      obtain rfl := Option.some.inj hk
      exact hproper (hw id known hknown)
    · exact hw other k hk
  · intro other k hk
    rw [hget]
    split
    · rename_i hid
      subst hid
      obtain rfl := Option.some.inj (hknown.symm.trans hk)
      exact ⟨known', rfl, hsame⟩
    · exact ⟨k, hk, Same.refl k⟩
  · intro other k hk hnone
    rw [hget] at hk
    split at hk
    · rename_i hid
      subst hid
      simp [hknown] at hnone
    · simp [hk] at hnone

lemma setAvailable_settles (w : World) (id : String) (available : Bool) :
    Settles ids w (w.setAvailable id available) := by
  unfold setAvailable
  split
  · exact Settles.refl ids w
  · rename_i known hknown
    split
    · exact Settles.refl ids w
    · have hkept : Settles ids w (w.keep id { known with available := available }) :=
        keep_settles hknown ⟨rfl, rfl, rfl, rfl⟩ fun h => ⟨h.id, h.keys⟩
      dsimp only
      split
      · exact hkept
      · exact hkept.trans (Settles.of_silent rfl rfl rfl (by simp [Silent, Told.word]))

lemma tellHub_settles (w : World) (id : String) (up : Option Bool) :
    Settles ids w (w.tellHub id up) := by
  unfold tellHub
  split
  · exact setAvailable_settles w _ _
  · exact Settles.refl ids w

/-! ### Describing a device in the world -/

lemma proper_insert {id : String} {known : Known} (hw : w.Proper)
    (hknown : SwitchBot.Proper id known) (hdevices : w'.devices = w.devices.insert id known) :
    w'.Proper := by
  intro other k hk
  rw [hdevices, Map.get_insert] at hk
  split at hk
  · rename_i hid
    subst hid
    obtain rfl := Option.some.inj hk
    exact hknown
  · exact hw other k hk

lemma truthful_report {id : String} {known : Known} (hknown : SwitchBot.Proper id known)
    (hget : w.devices[id]? = some known) (causedBy : Option ContextId) (replayed : Bool) :
    w.Truthful (report known causedBy replayed) := by
  rintro ⟨device, a, word⟩ hx
  obtain ⟨rfl, hword⟩ := word_of_report hknown causedBy replayed _ hx
  exact ⟨known, hget, hword⟩

lemma put_settles {id : String} {known' : Known} {said : List Told} (hid : ids id)
    (hknown : w.Proper → SwitchBot.Proper id known')
    (hold : ∀ old : Known, w.devices[id]? = some old → Same old known')
    (hnew : w.devices[id]? = none → Unheard known') (hcloud : w'.cloud = w.cloud)
    (hdevices : w'.devices = w.devices.insert id known')
    (htold : w'.told = w.told ++ said)
    (htrue : w.Proper → w'.Truthful said) : Settles ids w w' := by
  have hget : ∀ other : String, w'.devices[other]? =
      if id = other then some known' else w.devices[other]? := fun other => by
    rw [hdevices, Map.get_insert]
  refine ⟨hcloud, fun hw => proper_insert hw (hknown hw) hdevices, ?_, ?_, fun hw =>
    ⟨said, htold, htrue hw⟩⟩
  · intro other k hk
    rw [hget]
    split
    · rename_i hother
      exact ⟨known', rfl, hold k (hother ▸ hk)⟩
    · exact ⟨k, hk, Same.refl k⟩
  · intro other k hk hnone
    rw [hget] at hk
    split at hk
    · rename_i hother
      obtain rfl := Option.some.inj hk
      exact ⟨hother ▸ hid, hnew (hother ▸ hnone)⟩
    · simp [hk] at hnone

lemma introduce_devices (known : Known) : ∃ known', Same known known' ∧
    (w.introduce env known).devices = w.devices.insert known.listed.id known' ∧
    (∀ id, SwitchBot.Proper id known → SwitchBot.Proper id known') := by
  obtain ⟨-, hsame, hproper⟩ := describe_spec env w.told known
  refine ⟨(describe env w.told known).2.2, hsame, ?_, hproper⟩
  rw [← hsame.id]
  unfold introduce
  split
  · rename_i told known' hdescribed
    rw [hdescribed]
    rfl
  · rename_i told known' hdescribed
    rw [hdescribed]
    rfl

lemma introduce_settles {known : Known} (hid : ids known.listed.id)
    (hknown : w.Proper → SwitchBot.Proper known.listed.id known)
    (hold : ∀ old : Known, w.devices[known.listed.id]? = some old → Same old known)
    (hnew : w.devices[known.listed.id]? = none → Unheard known) :
    Settles ids w (w.introduce env known) := by
  obtain ⟨⟨said, htold, hsilent⟩, hsame, hproper⟩ := describe_spec env w.told known
  unfold introduce
  split
  · rename_i told known' hdescribed
    rw [hdescribed] at htold hsame hproper
    have hknown' : w.Proper → SwitchBot.Proper known.listed.id known' := fun hw =>
      hproper _ (hknown hw)
    have htold' : told ++ report known' none true =
        w.told ++ (said ++ report known' none true) := by
      rw [show told = w.told ++ said from htold, List.append_assoc]
    refine put_settles hid hknown' (fun old h => (hold old h).trans hsame)
      (fun h => (hnew h).same hsame) rfl (congrArg (w.devices.insert · known') hsame.id) htold'
      fun hw => Truthful.append (Silent.truthful hsilent _)
        (truthful_report (hknown' hw) ?_ none true)
    · rw [← show known'.listed.id = known.listed.id from hsame.id]
      exact (Map.get_insert _ _ _ _).trans (if_pos rfl)
  · rename_i told known' hdescribed
    rw [hdescribed] at htold hsame hproper
    exact put_settles hid (fun hw => hproper _ (hknown hw)) (fun old h => (hold old h).trans hsame)
      (fun h => (hnew h).same hsame) rfl (congrArg (w.devices.insert · known') hsame.id) htold
      fun _ => Silent.truthful hsilent _

lemma enlist_settles {hubs : List String} {listed : Listed} (hid : ids listed.id)
    (hw : w.Proper) : Settles ids w (w.enlist env hubs listed) := by
  have hdirty : Settles ids w { w with readingsDirty := true } := Settles.of_eq rfl rfl rfl
  unfold enlist
  split
  · exact Settles.refl ids w
  · rename_i family hfamily
    dsimp only
    split
    · rename_i hnone
      refine hdirty.trans (introduce_settles hid (fun _ => ⟨rfl, ?_⟩)
        (fun old h => absurd (hnone.symm.trans h) (by simp)) fun _ => ⟨rfl, rfl, rfl⟩)
      intro key hkey
      simp [Known.new] at hkey
    · rename_i known hknown
      have hproper := hw _ _ hknown
      split
      · exact keep_settles hknown ⟨rfl, rfl, rfl, rfl⟩ fun h => ⟨h.id, h.keys⟩
      · refine hdirty.trans (introduce_settles hid (fun _ => ⟨rfl, hproper.keys⟩)
          (fun old h => ?_) fun h => absurd (hknown.symm.trans h) (by simp))
        obtain rfl : known = old := Option.some.inj (hknown.symm.trans h)
        exact ⟨hproper.id.symm, rfl, rfl, rfl⟩

lemma foldl_enlist_settles {hubs : List String} (list : List Listed)
    (hids : ∀ listed ∈ list, ids listed.id) (hw : w.Proper) :
    Settles ids w (list.foldl (enlist env hubs) w) := by
  induction list generalizing w with
  | nil => exact Settles.refl ids w
  | cons listed rest ih =>
    have hfirst : Settles ids w (w.enlist env hubs listed) :=
      enlist_settles (hids listed (by simp)) hw
    exact hfirst.trans (ih (fun l hl => hids l (by simp [hl])) (hfirst.proper hw))

/-! ### Devices that go -/

lemma erase_drops {id : String} {said : List Told} (hid : ids id) (hcloud : w'.cloud = w.cloud)
    (hdevices : w'.devices = w.devices.erase id) (htold : w'.told = w.told ++ said)
    (hsilent : Silent said) : Drops ids w w' := by
  have hget : ∀ other : String, w'.devices[other]? =
      if id = other then none else w.devices[other]? := fun other => by
    rw [hdevices, Map.get_erase]
  refine ⟨hcloud, ?_, ?_, ?_, ⟨said, htold, hsilent⟩⟩
  · intro hw other k hk
    rw [hget] at hk
    split at hk
    · cases hk
    · exact hw other k hk
  · intro other k hk
    rw [hget] at hk
    split at hk
    · cases hk
    · exact ⟨k, hk, Same.refl k⟩
  · intro other k hk hother
    rw [hget, if_neg (fun h : id = other => hother (h ▸ hid))]
    exact ⟨k, hk⟩

lemma Settles.drops (h : Settles (fun _ => False) w w')
    (htold : ∃ said, w'.told = w.told ++ said ∧ Silent said) : Drops ids w w' := by
  refine ⟨h.cloud, h.proper, ?_, ?_, htold⟩
  · intro id known' hknown'
    cases hknown : w.devices[id]? with
    | none => exact (h.comes id known' hknown' hknown).1.elim
    | some known =>
      obtain ⟨k, hk, hsame⟩ := h.stays id known hknown
      obtain rfl : k = known' := Option.some.inj (hk.symm.trans hknown')
      exact ⟨known, rfl, hsame⟩
  · intro id known hknown _
    obtain ⟨known', hknown', -⟩ := h.stays id known hknown
    exact ⟨known', hknown'⟩

lemma setAvailable_told (w : World) (id : String) (available : Bool) :
    ∃ said, (w.setAvailable id available).told = w.told ++ said ∧ Silent said := by
  have hnone : ∃ said, w.told = w.told ++ said ∧ Silent said := ⟨[], by simp, by simp [Silent]⟩
  unfold setAvailable
  split
  · exact hnone
  · split
    · exact hnone
    · dsimp only
      split
      · exact hnone
      · exact ⟨_, rfl, by simp [Silent, Told.word]⟩

lemma unlist_drops {moment : Moment} {id : String} (hid : ids id) :
    Drops ids w (w.unlist env moment id) := by
  unfold unlist
  split
  · exact Drops.refl ids w
  · rename_i known hknown
    split
    · refine Settles.drops (keep_settles hknown ?_ fun h => ?_) ⟨[], by simp [keep], by simp [Silent]⟩
      · exact ⟨rfl, rfl, rfl, rfl⟩
      · exact ⟨h.id, h.keys⟩
    · dsimp only
      split
      · exact erase_drops hid rfl rfl (List.append_nil _).symm (by simp [Silent])
      · exact erase_drops hid rfl rfl rfl (by simp [Silent, Told.word])

lemma foldl_drops {step : World → String → World} (list : List String)
    (hstep : ∀ (w : World) (id : String), id ∈ list → Drops ids w (step w id)) (w : World) :
    Drops ids w (list.foldl step w) := by
  induction list generalizing w with
  | nil => exact Drops.refl ids w
  | cons id rest ih =>
    exact (hstep w id (by simp)).trans (ih (fun w' id' h => hstep w' id' (by simp [h])) _)

lemma Drops.of_eq (hcloud : w'.cloud = w.cloud) (hdevices : w'.devices = w.devices)
    (htold : w'.told = w.told) : Drops ids w w' :=
  (Settles.of_eq hcloud hdevices htold).drops ⟨[], by simp [htold], by simp [Silent]⟩

lemma hush_drops {id : String} : Drops ids w (w.hush id) := by
  have hears : Drops ids w { w with ears := w.ears.erase id, mapDirty := true } :=
    Drops.of_eq rfl rfl rfl
  unfold hush
  dsimp only
  split
  · exact hears.trans ((setAvailable_settles _ _ _).drops (setAvailable_told _ _ _))
  · exact hears

lemma redraw_drops (moment : Moment) : Drops (fun _ => True) w (w.redraw env moment) := by
  unfold redraw
  dsimp only
  refine Drops.trans (foldl_drops _ (fun w' id _ => hush_drops) w)
    (Drops.trans (foldl_drops _ (fun w' id _ => ?_) _) (Drops.of_eq rfl rfl rfl))
  exact erase_drops trivial rfl rfl (List.append_nil _).symm (by simp [Silent])

lemma unlisted_drops {moment : Moment} {list : List Listed} (gone : List String)
    (hgone : ∀ id ∈ gone, id ∉ list.map (·.id)) :
    Drops (· ∉ list.map (·.id)) w (gone.foldl (unlist env moment) w) :=
  foldl_drops gone (fun _ id hid => unlist_drops (hgone id hid)) w

/-! ### What comes of a reading -/

/-- Where nothing is heard or learnt: each device there is was there before, or is new. -/
structure Rests (w w' : World) : Prop where
  cloud : w'.cloud = w.cloud
  proper : w.Proper → w'.Proper
  was : w.Proper → ∀ (id : String) (known' : Known), w'.devices[id]? = some known' →
    (∃ known : Known, w.devices[id]? = some known ∧ Same known known') ∨
      (w.devices[id]? = none ∧ Unheard known')
  tells : w.Proper → Tells w w'

/-- One device's reading is another, and nothing else is heard or learnt. -/
structure Alters (id : String) (after : Known) (w w' : World) : Prop where
  cloud : w'.cloud = w.cloud
  proper : w'.Proper
  here : ∃ known' : Known, w'.devices[id]? = some known' ∧ Same after known'
  elsewhere : ∀ (other : String) (known' : Known), other ≠ id → w'.devices[other]? = some known' →
    ∃ known : Known, w.devices[other]? = some known ∧ Same known known'
  stays : ∀ (other : String) (known : Known), other ≠ id → w.devices[other]? = some known →
    ∃ known' : Known, w'.devices[other]? = some known'
  tells : Tells w w'

lemma Drops.rests (h : Drops ids w w') : Rests w w' := by
  obtain ⟨said, htold, hsilent⟩ := h.told
  exact ⟨h.cloud, h.proper, fun _ id known' hknown' => .inl (h.was id known' hknown'), fun _ =>
    ⟨said, htold, Silent.truthful hsilent _⟩⟩

lemma Settles.rests (h : Settles ids w w') : Rests w w' := by
  refine ⟨h.cloud, h.proper, fun _ id known' hknown' => ?_, h.tells⟩
  cases hknown : w.devices[id]? with
  | none => exact .inr ⟨rfl, (h.comes id known' hknown' hknown).2⟩
  | some known =>
    obtain ⟨k, hk, hsame⟩ := h.stays id known hknown
    obtain rfl : k = known' := Option.some.inj (hk.symm.trans hknown')
    exact .inl ⟨known, rfl, hsame⟩

lemma Drops.settles (h : Drops (fun id => ¬ids id) w w') (h' : Settles ids w' w'') :
    Rests w w'' := by
  refine ⟨h'.cloud.trans h.cloud, fun hw => h'.proper (h.proper hw), ?_, ?_⟩
  · intro _ id known'' hknown''
    cases hmid : w'.devices[id]? with
    | some known' =>
      obtain ⟨k, hk, hsame⟩ := h'.stays id known' hmid
      obtain rfl : k = known'' := Option.some.inj (hk.symm.trans hknown'')
      obtain ⟨known, hknown, hsame'⟩ := h.was id known' hmid
      exact .inl ⟨known, hknown, hsame'.trans hsame⟩
    | none =>
      obtain ⟨hid, hnew⟩ := h'.comes id known'' hknown'' hmid
      cases hknown : w.devices[id]? with
      | none => exact .inr ⟨rfl, hnew⟩
      | some known =>
        obtain ⟨known', hknown'⟩ := h.stays id known hknown (fun hgone => hgone hid)
        simp [hmid] at hknown'
  · intro hw
    obtain ⟨said, htold, hsilent⟩ := h.told
    obtain ⟨said', htold', htrue⟩ := h'.tells (h.proper hw)
    exact ⟨said ++ said', by rw [htold', htold, List.append_assoc],
      (Silent.truthful hsilent _).append htrue⟩

lemma Drops.comes (h : Drops (fun id => ¬ids id) w w') (h' : Settles ids w' w'') {id : String}
    {known : Known} (hknown : w''.devices[id]? = some known) (hnone : w.devices[id]? = none) :
    ids id := by
  cases hmid : w'.devices[id]? with
  | none => exact (h'.comes id known hknown hmid).1
  | some known' =>
    obtain ⟨old, hold, -⟩ := h.was id known' hmid
    exact absurd (hnone.symm.trans hold) (by simp)

lemma adopt_parts (moment : Moment) (list : List Listed) (hw : w.Proper) :
    ∃ w', Drops (fun id => ¬id ∈ list.map (·.id)) w w' ∧
      Settles (· ∈ list.map (·.id)) w' (w.adopt env moment list) := by
  unfold adopt
  dsimp only
  have hdrops : Drops (fun id => ¬id ∈ list.map (·.id)) w
      (((w.devices.toList.filter fun entry =>
        entry.2.fromCloud && !(list.map (·.id)).contains entry.1).map Prod.fst).foldl
          (unlist env moment) w) := by
    refine unlisted_drops _ fun id hid => ?_
    obtain ⟨entry, hentry, rfl⟩ := List.mem_map.mp hid
    have hout := (List.mem_filter.mp hentry).2
    simp only [Bool.and_eq_true, Bool.not_eq_true', List.contains_eq_mem,
      decide_eq_false_iff_not] at hout
    exact hout.2
  refine ⟨_, hdrops, foldl_enlist_settles _ (fun listed hlisted => ?_) (hdrops.proper hw)⟩
  have hin : listed ∈ list := by
    simp only [hubsFirst, List.mem_append, List.mem_filter] at hlisted
    exact hlisted.elim (·.1) (·.1)
  exact List.mem_map_of_mem hin

/-! ### An advert and an answer -/

lemma elsewhere_insert {id other : String} {known known' : Known} (hother : other ≠ id)
    (hk : (w.devices.insert id known)[other]? = some known') :
    ∃ k : Known, w.devices[other]? = some k ∧ Same k known' := by
  rw [Map.get_insert, if_neg (Ne.symm hother)] at hk
  exact ⟨known', hk, Same.refl known'⟩

lemma stays_insert {id other : String} {known known' : Known} (hother : other ≠ id)
    (hk : w.devices[other]? = some known) :
    ∃ k : Known, (w.devices.insert id known')[other]? = some k := by
  rw [Map.get_insert, if_neg (Ne.symm hother)]
  exact ⟨known, hk⟩

lemma keep_alters {id : String} {known : Known} (hw : w.Proper)
    (hknown : SwitchBot.Proper id known) : Alters id known w (w.keep id known) :=
  ⟨rfl, proper_insert hw hknown rfl,
    ⟨known, (Map.get_insert _ _ _ _).trans (if_pos rfl), Same.refl known⟩,
    fun _ _ hother hk => elsewhere_insert hother hk,
    fun _ _ hother hk => stays_insert hother hk,
    ⟨[], (List.append_nil _).symm, by simp [Truthful]⟩⟩

lemma publish_alters {id : String} {known : Known} (again : Bool) (causedBy : Option ContextId)
    (hw : w.Proper) (hknown : SwitchBot.Proper id known) :
    Alters id known w (w.publish env id known again causedBy) := by
  have hpart : ∃ known' said, Same known known' ∧ SwitchBot.Proper id known' ∧ Silent said ∧
      w.publish env id known again causedBy =
        ({ w with told := w.told ++ said }.tell (report known' causedBy false)).keep id known' := by
    obtain ⟨⟨said, htold, hsilent⟩, hsame, hproper⟩ := describe_spec env w.told known
    unfold publish
    cases again with
    | false =>
      exact ⟨known, [], Same.refl known, hknown, by simp [Silent], by simp⟩
    | true =>
      refine ⟨(describe env w.told known).2.2, said, hsame, hproper id hknown, hsilent, ?_⟩
      rw [← htold]
      rfl
  obtain ⟨known', said, hsame, hknown', hsilent, hpublish⟩ := hpart
  rw [hpublish]
  have hhere : (({ w with told := w.told ++ said }.tell (report known' causedBy false)).keep id
      known').devices[id]? = some known' := (Map.get_insert _ _ _ _).trans (if_pos rfl)
  exact ⟨rfl, proper_insert hw hknown' rfl, ⟨known', hhere, hsame⟩,
    fun _ _ hother hk => elsewhere_insert hother hk,
    fun _ _ hother hk => stays_insert hother hk,
    ⟨said ++ report known' causedBy false, List.append_assoc _ _ _,
      (Silent.truthful hsilent _).append (truthful_report hknown' hhere causedBy false)⟩⟩

lemma Alters.settles {id : String} {after : Known} (h : Alters id after w w')
    (h' : Settles (fun _ => False) w' w'') : Alters id after w w'' := by
  obtain ⟨known', hknown', hsame⟩ := h.here
  obtain ⟨known'', hknown'', hsame'⟩ := h'.stays id known' hknown'
  obtain ⟨said, htold, htrue⟩ := h.tells
  obtain ⟨said', htold', htrue'⟩ := h'.tells h.proper
  refine ⟨h'.cloud.trans h.cloud, h'.proper h.proper, ⟨known'', hknown'', hsame.trans hsame'⟩, ?_,
    ?_,
    ⟨said ++ said', by rw [htold', htold, List.append_assoc], (htrue.settles h').append htrue'⟩⟩
  · intro other k hother hk
    cases hmid : w'.devices[other]? with
    | none => exact (h'.comes other k hk hmid).1.elim
    | some m =>
      obtain ⟨m', hm', hsame''⟩ := h'.stays other m hmid
      obtain rfl : m' = k := Option.some.inj (hm'.symm.trans hk)
      obtain ⟨known, hknown, hsame'''⟩ := h.elsewhere other m hother hmid
      exact ⟨known, hknown, hsame'''.trans hsame''⟩
  · intro other k hother hk
    obtain ⟨m, hm⟩ := h.stays other k hother hk
    obtain ⟨m', hm', -⟩ := h'.stays other m hm
    exact ⟨m', hm'⟩

lemma Alters.of_eq {id : String} {after : Known} (h : Alters id after w' w'')
    (hcloud : w'.cloud = w.cloud) (hdevices : w'.devices = w.devices)
    (htold : w'.told = w.told) : Alters id after w w'' := by
  refine ⟨h.cloud.trans hcloud, h.proper, h.here, ?_, ?_, ?_⟩
  · intro other k hother hk
    rw [← hdevices]
    exact h.elsewhere other k hother hk
  · exact fun other k hother hk => h.stays other k hother (hdevices ▸ hk)
  · obtain ⟨said, hsaid, htrue⟩ := h.tells
    exact ⟨said, htold ▸ hsaid, htrue⟩

lemma takeIn_alters {moment : Moment} {mac : String} {before : Known} (heard : Heard)
    (hw : w.Proper) (hbefore : w.devices[mac]? = some before) :
    Alters mac (before.heed moment.now heard.reading) w (w.takeIn env moment mac heard) := by
  have hproper : SwitchBot.Proper mac (before.heed moment.now heard.reading) :=
    ⟨(hw mac before hbefore).id, (hw mac before hbefore).keys⟩
  unfold takeIn hark
  dsimp only
  rw [hbefore]
  dsimp only
  refine Alters.settles ?_ (setAvailable_settles _ _ _)
  split
  · refine Alters.of_eq (keep_alters ?_ hproper) rfl rfl rfl
    exact hw
  · refine Alters.of_eq (publish_alters _ none ?_ hproper) rfl rfl rfl
    exact hw

lemma learn_alters {moment : Moment} {id : String} {status : Status}
    {causedBy : Option ContextId} {known : Known} (hw : w.Proper)
    (hknown : w.devices[id]? = some known) (up : Option Bool) :
    Alters id (known.toldByCloud (w.heardLately env moment id)
      (Reading.fromStatus env.decimals known.family status)) w
      ((w.learn env moment id status causedBy known).tellHub id up) := by
  have hproper : SwitchBot.Proper id (known.toldByCloud (w.heardLately env moment id)
      (Reading.fromStatus env.decimals known.family status)) :=
    ⟨(hw id known hknown).id, (hw id known hknown).keys⟩
  unfold learn
  dsimp only
  refine Alters.settles (Alters.settles ?_ (setAvailable_settles _ _ _)) (tellHub_settles _ _ _)
  refine Alters.of_eq (publish_alters _ causedBy ?_ hproper) rfl rfl rfl
  exact hw

lemma Settles.alters {id : String} {after : Known} (h : Settles (· = id) w w')
    (htold : ∃ said, w'.told = w.told ++ said ∧ Silent said) (h' : Alters id after w' w'') :
    Alters id after w w'' := by
  obtain ⟨said, htold, hsilent⟩ := htold
  obtain ⟨said', htold', htrue⟩ := h'.tells
  refine ⟨h'.cloud.trans h.cloud, h'.proper, h'.here, ?_, ?_,
    ⟨said ++ said', by rw [htold', htold, List.append_assoc],
      (Silent.truthful hsilent _).append htrue⟩⟩
  · intro other k hother hk
    obtain ⟨m, hm, hsame⟩ := h'.elsewhere other k hother hk
    cases hknown : w.devices[other]? with
    | none => exact absurd (h.comes other m hm hknown).1 hother
    | some known =>
      obtain ⟨m', hm', hsame'⟩ := h.stays other known hknown
      obtain rfl : m' = m := Option.some.inj (hm'.symm.trans hm)
      exact ⟨known, rfl, hsame'.trans hsame⟩
  · intro other k hother hk
    obtain ⟨m, hm, -⟩ := h.stays other k hk
    exact h'.stays other m hother hm

def overheard (w : World) (advert : Advert) : Option Heard :=
  match advert.mac with
  | none => none
  | some mac =>
    if advert.claimsAnotherAddress then none
    else parse advert ((w.devices[mac]?).map (·.listed.deviceType))

lemma overheard_mac {advert : Advert} {heard : Heard} (h : w.overheard advert = some heard) :
    advert.mac = some heard.mac := by
  unfold overheard at h
  split at h
  · cases h
  · rename_i mac hmac
    split at h
    · cases h
    · unfold parse at h
      simp only [hmac, Option.bind_eq_bind, Option.bind_some, Option.bind_eq_some_iff,
        Option.some.injEq] at h
      obtain ⟨model, -, reading, -, rfl⟩ := h
      exact hmac

/-- What an advert comes to: nothing, or what it says of a device that is known, or of one that is
new where there is no account. -/
inductive Hears (env : Env) (moment : Moment) (advert : Advert) (w w' : World) : Prop
  | unheard (hnot : w.overheard advert = none) (hrests : Rests w w')
    (hdevices : w'.devices = w.devices) (htold : w'.told = w.told)
  | stranger (heard : Heard) (hheard : w.overheard advert = some heard)
    (hgone : w'.devices[heard.mac]? = none) (hrests : Rests w w')
    (hdevices : w'.devices = w.devices)
  | taken (heard : Heard) (hheard : w.overheard advert = some heard) (before : Known)
    (hbefore : w.devices[heard.mac]? = some before ∨
      (w.devices[heard.mac]? = none ∧ w.cloud = false ∧ Unheard before))
    (halters : Alters heard.mac (before.heed moment.now heard.reading) w w')

lemma hear_hears (moment : Moment) (advert : Advert) (hw : w.Proper) :
    Hears env moment advert w (w.hear env moment advert) := by
  unfold hear
  have hself : ∀ w' : World, w'.cloud = w.cloud → w'.devices = w.devices → w'.told = w.told →
      Rests w w' := fun w' hcloud hdevices htold => by
    have h : Settles (fun _ => False) w w' := Settles.of_eq hcloud hdevices htold
    exact h.rests
  cases hmac : advert.mac with
  | none => exact .unheard (by simp [overheard, hmac]) (hself _ rfl rfl rfl) rfl rfl
  | some mac =>
    dsimp only
    by_cases hclaims : advert.claimsAnotherAddress = true
    · rw [if_pos hclaims]
      exact .unheard (by simp [overheard, hmac, hclaims]) (hself _ rfl rfl rfl) rfl rfl
    · rw [if_neg hclaims]
      have hover : w.overheard advert =
          parse advert ((w.devices[mac]?).map (·.listed.deviceType)) := by
        simp only [overheard, hmac, if_neg hclaims]
      split
      · rename_i hparse
        exact .unheard (hover.trans hparse) (hself _ rfl rfl rfl) rfl rfl
      · rename_i heard hparse
        have hheard : w.overheard advert = some heard := hover.trans hparse
        obtain rfl : mac = heard.mac :=
          Option.some.inj (hmac.symm.trans (overheard_mac hheard))
        by_cases hcontains : w.devices.contains heard.mac = true
        · rw [if_pos hcontains]
          obtain ⟨before, hbefore⟩ : ∃ before, w.devices[heard.mac]? = some before := by
            rw [Std.ExtTreeMap.contains_eq_isSome_getElem?] at hcontains
            exact Option.isSome_iff_exists.mp hcontains
          refine .taken heard hheard before (.inl hbefore)
            (Alters.of_eq (takeIn_alters heard ?_ ?_) rfl rfl rfl)
          · exact hw
          · exact hbefore
        · rw [if_neg hcontains]
          have hnone : w.devices[heard.mac]? = none := by
            rw [Std.ExtTreeMap.contains_eq_isSome_getElem?] at hcontains
            simpa using hcontains
          by_cases hcloud : w.cloud = true
          · rw [if_pos hcloud]
            exact .stranger heard hheard hnone (hself _ rfl rfl rfl) rfl
          · rw [if_neg hcloud]
            split
            · exact .stranger heard hheard hnone (hself _ rfl rfl rfl) rfl
            · rename_i family hfamily
              obtain ⟨⟨said, htold, hsilent⟩, hsame, hproper⟩ :=
                describe_spec env w.told (found heard.mac heard family)
              split
              · rename_i told known' hdescribed
                have hd : describe env w.told (found heard.mac heard family) =
                    (false, told, known') := hdescribed
                rw [hd] at htold
                have hsettles : Settles (fun _ => False) w
                    { w with radio := .listening, told := told } :=
                  Settles.of_silent rfl rfl htold hsilent
                exact .stranger heard hheard hnone hsettles.rests rfl
              · rename_i told known' hdescribed
                have hd : describe env w.told (found heard.mac heard family) =
                    (true, told, known') := hdescribed
                rw [hd] at htold hsame hproper
                have hknown' : SwitchBot.Proper heard.mac known' :=
                  hproper heard.mac ⟨rfl, fun key hkey => by simp [found, Known.new] at hkey⟩
                have hcomes : Settles (· = heard.mac) w
                    ({ w with radio := .listening, told := told, readingsDirty := true }.keep
                      heard.mac known') :=
                  put_settles rfl (fun _ => hknown')
                    (fun old h => absurd (hnone.symm.trans h) (by simp))
                    (fun _ => Unheard.same ⟨rfl, rfl, rfl⟩ hsame) rfl rfl htold
                    fun _ => Silent.truthful hsilent _
                refine .taken heard hheard known' (.inr ⟨hnone, by simpa using hcloud, ?_⟩)
                  (hcomes.alters ⟨said, htold, hsilent⟩ (takeIn_alters heard (hcomes.proper hw) ?_))
                · exact Unheard.same ⟨rfl, rfl, rfl⟩ hsame
                · exact (Map.get_insert _ _ _ _).trans (if_pos rfl)

end World

end SwitchBot

end Irori
