import Irori.Lib.Map

/-!
# Ids, times and states

The types every part of the home shares: validated ids, kinds of entity, moments, plain
JSON, and the state of an entity as automations see it.
-/

namespace Irori

structure IdError where
  what : String
  value : String
  reason : String
  deriving DecidableEq

def IdError.display (e : IdError) : String :=
  s!"invalid {e.what} {e.value.quote}: {e.reason}"

def slugMaxLen : Nat := 64

lemma isUpper_eq (c : Char) : c.isUpper = decide (c.val ≥ 'A'.val ∧ c.val ≤ 'Z'.val) := rfl
lemma isLower_eq (c : Char) : c.isLower = (c.val ≥ 'a'.val && c.val ≤ 'z'.val) := rfl
lemma isAlpha_eq (c : Char) : c.isAlpha = (c.isUpper || c.isLower) := rfl

def isSlugChar (c : Char) : Bool :=
  ('a' ≤ c && c ≤ 'z') || ('0' ≤ c && c ≤ '9') || c == '_'

def doubled : List Char → Bool
  | a :: b :: rest => (a == '_' && b == '_') || doubled (b :: rest)
  | _ => false

/-- Lowercase ASCII letters and digits in `_`-separated words. -/
def checkSlug (what value : String) : Except IdError Unit :=
  let chars := value.toList
  if chars.isEmpty then .error ⟨what, value, "must not be empty"⟩
  else if value.utf8ByteSize > slugMaxLen then
    .error ⟨what, value, "must be at most 64 characters"⟩
  else if !chars.all isSlugChar then
    .error ⟨what, value, "may only contain lowercase letters a-z, digits, and `_`"⟩
  else if chars.head? == some '_' || chars.getLast? == some '_' || doubled chars then
    .error ⟨what, value, "`_` must separate words (no leading, trailing, or doubled `_`)"⟩
  else .ok ()

structure Slug (what : String) where
  text : String
  wellFormed : checkSlug what text = .ok ()

namespace Slug

variable {what : String}

lemma text_injective : Function.Injective (text : Slug what → String) := by
  rintro ⟨a, _⟩ ⟨b, _⟩ h
  simpa using h

instance : LinearOrder (Slug what) := LinearOrder.lift' text text_injective

instance transCmp : Std.TransCmp (compare : Slug what → Slug what → Ordering) := inferInstance

instance lawfulEqCmp : Std.LawfulEqCmp (compare : Slug what → Slug what → Ordering) := inferInstance

def parse (what value : String) : Except IdError (Slug what) :=
  match h : checkSlug what value with
  | .ok () => .ok ⟨value, h⟩
  | .error e => .error e

end Slug

abbrev ObjectId := Slug "object id"
abbrev RuleId := Slug "rule id"
abbrev UserId := Slug "user id"
abbrev AttributeKey := Slug "attribute key"

/-- What an entity is; also the domain part of its id. -/
inductive EntityKind
  | light | switch | sensor | binarySensor | number | select | text | button | event | cover
  | lock | fan | valve | siren | climate | waterHeater | humidifier | mediaPlayer | update
  | alarmControlPanel | date | time | datetime | vacuum | lawnMower | scene | deviceTracker
  | timer | schedule | camera
  deriving DecidableEq

namespace EntityKind

def all : List EntityKind :=
  [light, switch, sensor, binarySensor, number, select, text, button, event, cover, lock, fan,
    valve, siren, climate, waterHeater, humidifier, mediaPlayer, update, alarmControlPanel, date,
    time, datetime, vacuum, lawnMower, scene, deviceTracker, timer, schedule, camera]

def domain : EntityKind → String
  | light => "light"
  | switch => "switch"
  | sensor => "sensor"
  | binarySensor => "binary_sensor"
  | number => "number"
  | select => "select"
  | text => "text"
  | button => "button"
  | event => "event"
  | cover => "cover"
  | lock => "lock"
  | fan => "fan"
  | valve => "valve"
  | siren => "siren"
  | climate => "climate"
  | waterHeater => "water_heater"
  | humidifier => "humidifier"
  | mediaPlayer => "media_player"
  | update => "update"
  | alarmControlPanel => "alarm_control_panel"
  | date => "date"
  | time => "time"
  | datetime => "datetime"
  | vacuum => "vacuum"
  | lawnMower => "lawn_mower"
  | scene => "scene"
  | deviceTracker => "device_tracker"
  | timer => "timer"
  | schedule => "schedule"
  | camera => "camera"

def fromDomain (domain : String) : Option EntityKind :=
  all.find? (fun kind => kind.domain == domain)

/-- Whether every report is something happening, even one identical to the last. -/
def countsEveryReport (kind : EntityKind) : Bool := kind == event

/-- Whether any command to an entity of this kind changes how the home is set up. -/
def commandsNeedOwner (kind : EntityKind) : Bool := kind == update

end EntityKind

/-- The parts of a text before and after its first `c`. -/
def splitOnce (c : Char) (text : String) : Option (String × String) :=
  let chars := text.toList
  if chars.contains c then
    some (String.ofList (chars.takeWhile (· != c)),
      String.ofList ((chars.dropWhile (· != c)).drop 1))
  else none

def checkEntityId (value : String) : Except IdError Unit :=
  match splitOnce '.' value with
  | none => .error ⟨"entity id", value, "must be `<kind>.<object_id>`, e.g. `light.hallway`"⟩
  | some (kind, objectId) =>
    if (EntityKind.fromDomain kind).isNone then
      .error ⟨"entity id", value,
        "unknown kind before the `.` (expected one of: light, switch, sensor, binary_sensor)"⟩
    else checkSlug "entity id" objectId

structure EntityId where
  text : String
  wellFormed : checkEntityId text = .ok ()

namespace EntityId

lemma text_injective : Function.Injective text := by
  rintro ⟨a, _⟩ ⟨b, _⟩ h
  simpa using h

instance : LinearOrder EntityId := LinearOrder.lift' text text_injective

instance transCmp : Std.TransCmp (compare : EntityId → EntityId → Ordering) := inferInstance

instance lawfulEqCmp : Std.LawfulEqCmp (compare : EntityId → EntityId → Ordering) := inferInstance

instance lawfulBEq : LawfulBEq EntityId := inferInstance

def parse (value : String) : Except IdError EntityId :=
  match h : checkEntityId value with
  | .ok () => .ok ⟨value, h⟩
  | .error e => .error e

lemma parse_text {value : String} {id : EntityId} (h : parse value = .ok id) :
    id.text = value := by
  unfold parse at h
  split at h
  · simp only [Except.ok.injEq] at h
    rw [← h]
  · simp at h

def kind? (id : EntityId) : Option EntityKind :=
  (splitOnce '.' id.text).bind (fun parts => EntityKind.fromDomain parts.1)

lemma kind?_isSome (id : EntityId) : id.kind?.isSome := by
  have h := id.wellFormed
  unfold checkEntityId at h
  unfold kind?
  cases hs : splitOnce '.' id.text with
  | none => simp [hs] at h
  | some parts =>
    simp only [hs] at h
    cases hk : EntityKind.fromDomain parts.1 with
    | none => simp [hk] at h
    | some kind => simp [hk]

def kind (id : EntityId) : EntityKind := id.kind?.get id.kind?_isSome

end EntityId

def isCrockford (c : Char) : Bool := "0123456789ABCDEFGHJKMNPQRSTVWXYZ".toList.contains c

def checkUlid (value : String) : Except IdError Unit :=
  let chars := value.toList
  if value.utf8ByteSize ≠ 26 then
    .error ⟨"context id", value, "must be a 26-character ULID"⟩
  else if !chars.all isCrockford then
    .error ⟨"context id", value, "must be an uppercase Crockford base32 ULID (no I, L, O, U)"⟩
  else if chars.head?.any (fun c => '7' < c) then
    .error ⟨"context id", value, "ULID timestamp overflows (first character must be 0-7)"⟩
  else .ok ()

/-- Identifies a context, such as a run: a ULID. -/
structure ContextId where
  text : String
  wellFormed : checkUlid text = .ok ()

namespace ContextId

lemma text_injective : Function.Injective text := by
  rintro ⟨a, _⟩ ⟨b, _⟩ h
  simpa using h

instance : LinearOrder ContextId := LinearOrder.lift' text text_injective

instance transCmp : Std.TransCmp (compare : ContextId → ContextId → Ordering) := inferInstance

end ContextId

def crockford : List Char := "0123456789ABCDEFGHJKMNPQRSTVWXYZ".toList

def ulidDigit (value i : Nat) : Char := crockford.getD (value / 32 ^ i % 32) '0'

def ulidChars (millis random : Nat) : List Char :=
  let value := millis % 2 ^ 48 * 2 ^ 80 + random % 2 ^ 80
  (List.range 26).reverse.map (ulidDigit value)

lemma crockford_ascii : ∀ c ∈ crockford, c.utf8Size = 1 ∧ isCrockford c = true := by
  intro c hc
  have hsize : crockford.all (fun c => c.utf8Size == 1) = true := by decide
  have hone := List.all_eq_true.mp hsize c hc
  exact ⟨by simpa using hone, List.contains_iff_mem.mpr hc⟩

lemma ulidDigit_mem (value i : Nat) : ulidDigit value i ∈ crockford := by
  unfold ulidDigit
  have hlt : value / 32 ^ i % 32 < crockford.length := by
    have : crockford.length = 32 := by decide
    omega
  rw [List.getD_eq_getElem?_getD, List.getElem?_eq_getElem hlt]
  exact List.getElem_mem hlt

lemma utf8ByteSize_ofList (chars : List Char) (h : ∀ c ∈ chars, c.utf8Size = 1) :
    (String.ofList chars).utf8ByteSize = chars.length := by
  induction chars with
  | nil => simp
  | cons c cs ih =>
    have hc := h c (by simp)
    have hcs := ih (fun d hd => h d (by simp [hd]))
    have : String.ofList (c :: cs) = String.singleton c ++ String.ofList cs := by
      simp
    rw [this, String.utf8ByteSize_append, hcs]
    simp [hc]
    omega

lemma ulid_wellFormed (millis random : Nat) :
    checkUlid (String.ofList (ulidChars millis random)) = .ok () := by
  have hmem : ∀ c ∈ ulidChars millis random, c ∈ crockford := by
    intro c hc
    simp only [ulidChars, List.mem_map] at hc
    obtain ⟨i, -, rfl⟩ := hc
    exact ulidDigit_mem _ i
  have hsize : (String.ofList (ulidChars millis random)).utf8ByteSize = 26 := by
    rw [utf8ByteSize_ofList _ (fun c hc => (crockford_ascii c (hmem c hc)).1)]
    simp [ulidChars]
  have hall : (ulidChars millis random).all isCrockford = true := by
    rw [List.all_eq_true]
    exact fun c hc => (crockford_ascii c (hmem c hc)).2
  have hhead : (ulidChars millis random).head?.any (fun c => decide ('7' < c)) = false := by
    have hfirst : (ulidChars millis random).head? =
        some (ulidDigit (millis % 2 ^ 48 * 2 ^ 80 + random % 2 ^ 80) 25) := rfl
    have hlow : (millis % 2 ^ 48 * 2 ^ 80 + random % 2 ^ 80) / 32 ^ 25 % 32 < 8 := by omega
    rw [hfirst, Option.any_some]
    unfold ulidDigit
    generalize (millis % 2 ^ 48 * 2 ^ 80 + random % 2 ^ 80) / 32 ^ 25 % 32 = digit at hlow
    interval_cases digit <;> rfl
  unfold checkUlid
  simp [hsize, hall, hhead]

def ulid (millis random : Nat) : ContextId :=
  ⟨String.ofList (ulidChars millis random), ulid_wellFormed millis random⟩

abbrev Timestamp := Int

def Timestamp.least : Timestamp := -377705023201 * 1000000000
def Timestamp.greatest : Timestamp := 253402207200 * 1000000000 + 999999999

def millis (t : Timestamp) : Nat := (t.tdiv 1000000).toNat

def plus (t : Timestamp) (ms : Int) : Timestamp :=
  let moved := t + ms * 1000000
  if Timestamp.least ≤ moved ∧ moved ≤ Timestamp.greatest then moved else t

/-- A JSON number: a whole one, or a decimal. Decimals are exact rationals here. -/
inductive Number
  | int (value : Int)
  | float (value : ℚ)
  deriving DecidableEq

def Number.asF64 : Number → ℚ
  | .int value => value
  | .float value => value

inductive Json
  | null
  | bool (value : Bool)
  | number (value : Number)
  | string (value : String)
  | array (items : List Json)
  | object (entries : List (String × Json))

namespace Json

mutual

def eq : Json → Json → Bool
  | null, null => true
  | bool a, bool b => a == b
  | number a, number b => a == b
  | string a, string b => a == b
  | array a, array b => eqItems a b
  | object a, object b => eqEntries a b
  | _, _ => false

def eqItems : List Json → List Json → Bool
  | [], [] => true
  | a :: as, b :: bs => eq a b && eqItems as bs
  | _, _ => false

def eqEntries : List (String × Json) → List (String × Json) → Bool
  | [], [] => true
  | (k, a) :: as, (l, b) :: bs => k == l && eq a b && eqEntries as bs
  | _, _ => false

end

instance : BEq Json := ⟨eq⟩

def isNull : Json → Bool
  | null => true
  | _ => false

def asF64 : Json → Option ℚ
  | number n => some n.asF64
  | _ => none

def get? (key : String) : Json → Option Json
  | object entries => entries.lookup key
  | _ => none

end Json

inductive Availability
  | available
  | unavailable
  deriving DecidableEq

inductive ValueShape
  | bool
  | number
  | text
  deriving DecidableEq

/-- An entity's value the way automations see it. -/
inductive Typed
  | bool (on : Bool)
  | number (n : ℚ)
  | text (said : String)
  deriving DecidableEq

namespace Typed

def shape : Typed → ValueShape
  | .bool _ => .bool
  | .number _ => .number
  | .text _ => .text

def toJson : Typed → Json
  | .bool on => .bool on
  | .number n => .number (.float n)
  | .text said => .string said

end Typed

/-- A state as automations read it: its kind, its primary value, the fields it has said, and
for a light its raw brightness. -/
structure State where
  kind : EntityKind
  primary : Typed
  fields : List (String × Typed)
  brightness : Option UInt8
  deriving DecidableEq

def State.field (s : State) (name : String) : Option Typed := s.fields.lookup name

structure EntityState where
  entityId : EntityId
  availability : Availability
  /-- The typed value, or `none` if the entity has never reported one. -/
  state : Option State
  attributes : List (AttributeKey × Json)
  lastChanged : Timestamp
  contextId : ContextId

end Irori
