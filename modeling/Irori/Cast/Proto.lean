import Irori.Lib.Utf8
import Mathlib.Tactic

/-!
# The Cast frame

A 4-byte big-endian length and one protobuf message, from the cast extension's `proto`. Bytes are a
list; what a reader leaves of it is the rest of the list.
-/

namespace Irori.Cast

def maxFrame : ℕ := 1024 * 1024

structure CastMessage where
  sourceId : String
  destinationId : String
  nameSpace : String
  payload : String
  deriving DecidableEq

abbrev Bytes := List UInt8

def writeVarint (value : ℕ) : Bytes :=
  let byte := value &&& 0x7f
  let value' := value >>> 7
  if value' ≠ 0 then UInt8.ofNat (byte ||| 0x80) :: writeVarint value' else [UInt8.ofNat byte]
termination_by value
decreasing_by
  have hne : value >>> 7 ≠ 0 := ‹_›
  rw [Nat.shiftRight_eq_div_pow] at hne ⊢
  exact Nat.div_lt_self (Nat.pos_of_ne_zero fun h => hne (by rw [h])) (by decide)

def writeVarintField (field value : ℕ) : Bytes :=
  writeVarint (field <<< 3) ++ writeVarint value

def writeString (field : ℕ) (value : String) : Bytes :=
  writeVarint (field <<< 3 ||| 2) ++ writeVarint (Utf8.encode value).length ++ Utf8.encode value

def encodeBody (message : CastMessage) : Bytes :=
  writeVarintField 1 0 ++ writeString 2 message.sourceId ++ writeString 3 message.destinationId ++
    writeString 4 message.nameSpace ++ writeVarintField 5 0 ++ writeString 6 message.payload

def beBytes (n : ℕ) : Bytes :=
  [UInt8.ofNat (n / 2 ^ 24), UInt8.ofNat (n / 2 ^ 16), UInt8.ofNat (n / 2 ^ 8), UInt8.ofNat n]

def encode (message : CastMessage) : Bytes :=
  let body := encodeBody message
  beBytes (min body.length (2 ^ 32 - 1)) ++ body

def readVarintAt (value : ℕ) : List ℕ → Bytes → Except String (ℕ × Bytes)
  | [], _ => .error "a Cast message had a number that didn't end"
  | _, [] => .error "a Cast message ended early"
  | shift :: shifts, byte :: data =>
    let value := value ||| ((byte.toNat &&& 0x7f) <<< shift) % 2 ^ 64
    if byte.toNat &&& 0x80 = 0 then .ok (value, data) else readVarintAt value shifts data

def readVarint (data : Bytes) : Except String (ℕ × Bytes) :=
  readVarintAt 0 [0, 7, 14, 21, 28, 35, 42, 49, 56, 63] data

def readBytes (data : Bytes) : Except String (Bytes × Bytes) := do
  let (len, data) ← readVarint data
  if data.length < len then .error "a Cast message ended early"
  else return data.splitAt len

def skip (data : Bytes) (len : ℕ) : Except String Bytes :=
  if data.length < len then .error "a Cast message ended early" else .ok (data.drop len)

structure Parts where
  source : Option String
  destination : Option String
  nameSpace : Option String
  payload : Option String
  payloadType : ℕ

def Parts.none : Parts := ⟨.none, .none, .none, .none, 0⟩

def Parts.setText (parts : Parts) (field : ℕ) (text : String) : Parts :=
  match field with
  | 2 => { parts with source := some text }
  | 3 => { parts with destination := some text }
  | 4 => { parts with nameSpace := some text }
  | _ => { parts with payload := some text }

def readField (parts : Parts) (data : Bytes) : Except String (Parts × Bytes) := do
  let (key, data) ← readVarint data
  let field := key >>> 3
  let wire := key &&& 7
  if field = 1 ∧ wire = 0 then
    let (_, data) ← readVarint data
    return (parts, data)
  else if field = 5 ∧ wire = 0 then
    let (payloadType, data) ← readVarint data
    return ({ parts with payloadType }, data)
  else if field ∈ [2, 3, 4, 6] ∧ wire = 2 then
    let (text, data) ← readBytes data
    match Utf8.decode text with
    | some text => return (parts.setText field text, data)
    | none => .error "a Cast field wasn't text"
  else if wire = 0 then
    let (_, data) ← readVarint data
    return (parts, data)
  else if wire = 1 then
    let data ← skip data 8
    return (parts, data)
  else if wire = 2 then
    let (_, data) ← readBytes data
    return (parts, data)
  else if wire = 5 then
    let data ← skip data 4
    return (parts, data)
  else .error "a Cast message had a field this reader doesn't know"

def Leaves (data rest : Bytes) : Prop := ∃ used, used ≠ [] ∧ data = used ++ rest

lemma Leaves.length_lt {data rest : Bytes} (h : Leaves data rest) : rest.length < data.length := by
  obtain ⟨used, hne, rfl⟩ := h
  have hpos := List.length_pos_of_ne_nil hne
  rw [List.length_append]
  omega

lemma Leaves.drop {data rest : Bytes} (h : Leaves data rest) (n : ℕ) :
    Leaves data (rest.drop n) := by
  obtain ⟨used, hne, rfl⟩ := h
  exact ⟨used ++ rest.take n, by simp [hne], by simp⟩

lemma readVarintAt_leaves {shifts : List ℕ} {value n : ℕ} {data rest : Bytes}
    (h : readVarintAt value shifts data = .ok (n, rest)) : Leaves data rest := by
  induction shifts generalizing value data with
  | nil => cases h
  | cons shift shifts ih =>
    cases data with
    | nil => cases h
    | cons byte data =>
      rw [readVarintAt] at h
      split at h
      · cases h
        exact ⟨[byte], by simp, rfl⟩
      · obtain ⟨used, -, hused⟩ := ih h
        exact ⟨byte :: used, by simp, by rw [hused]; rfl⟩

lemma Leaves.trans {data mid rest : Bytes} (h : Leaves data mid) (h' : Leaves mid rest) :
    Leaves data rest := by
  obtain ⟨used, hne, rfl⟩ := h
  obtain ⟨used', -, rfl⟩ := h'
  exact ⟨used ++ used', by simp [hne], by simp⟩

section Bind

variable {α β : Type} {x : Except String α} {f : α → Except String β} {b : β}

lemma read_of_bind (h : (x >>= f) = .ok b) : ∃ a, x = .ok a ∧ f a = .ok b := by
  cases x with
  | error e => cases h
  | ok a => exact ⟨a, rfl, h⟩

end Bind

lemma readBytes_leaves {data text rest : Bytes} (h : readBytes data = .ok (text, rest)) :
    Leaves data rest := by
  obtain ⟨⟨len, mid⟩, hlen, h⟩ := read_of_bind h
  dsimp only at h
  split at h
  · cases h
  · have hsplit : rest = mid.drop len := by
      rw [List.splitAt_eq] at h
      exact (Prod.ext_iff.1 (Except.ok.inj h)).2.symm
    rw [hsplit]
    exact (readVarintAt_leaves hlen).drop _

lemma skip_eq {data rest : Bytes} {len : ℕ} (h : skip data len = .ok rest) :
    rest = data.drop len := by
  unfold skip at h
  split at h
  · cases h
  · exact (Except.ok.inj h).symm

lemma readField_leaves {parts parts' : Parts} {data rest : Bytes}
    (h : readField parts data = .ok (parts', rest)) : Leaves data rest := by
  obtain ⟨⟨key, mid⟩, hkey, h⟩ := read_of_bind h
  have hmid := readVarintAt_leaves hkey
  dsimp only at h
  split_ifs at h
  · obtain ⟨⟨n, left⟩, hread, h⟩ := read_of_bind h
    cases h
    exact hmid.trans (readVarintAt_leaves hread)
  · obtain ⟨⟨n, left⟩, hread, h⟩ := read_of_bind h
    cases h
    exact hmid.trans (readVarintAt_leaves hread)
  · obtain ⟨⟨text, left⟩, hread, h⟩ := read_of_bind h
    dsimp only at h
    split at h
    · cases h
      exact hmid.trans (readBytes_leaves hread)
    · cases h
  · obtain ⟨⟨n, left⟩, hread, h⟩ := read_of_bind h
    cases h
    exact hmid.trans (readVarintAt_leaves hread)
  · obtain ⟨left, hread, h⟩ := read_of_bind h
    cases h
    rw [skip_eq hread]
    exact hmid.drop _
  · obtain ⟨⟨text, left⟩, hread, h⟩ := read_of_bind h
    cases h
    exact hmid.trans (readBytes_leaves hread)
  · obtain ⟨left, hread, h⟩ := read_of_bind h
    cases h
    rw [skip_eq hread]
    exact hmid.drop _

def decodeFrom (parts : Parts) (data : Bytes) : Except String Parts :=
  match data with
  | [] => .ok parts
  | byte :: more =>
    match _h : readField parts (byte :: more) with
    | .error e => .error e
    | .ok (parts, rest) => decodeFrom parts rest
termination_by data.length
decreasing_by exact (readField_leaves ‹_›).length_lt

def decode (data : Bytes) : Except String CastMessage := do
  let parts ← decodeFrom .none data
  if parts.payloadType ≠ 0 then .error "a Cast message wasn't text"
  else match parts.nameSpace with
    | none => .error "a Cast message had no namespace"
    | some nameSpace =>
      return { sourceId := parts.source.getD ""
               destinationId := parts.destination.getD ""
               nameSpace
               payload := parts.payload.getD "" }

def beNat (bytes : Bytes) : ℕ := bytes.foldl (fun n byte => n * 256 + byte.toNat) 0

def readFrame (data : Bytes) : Except String (CastMessage × Bytes) :=
  if data.length < 4 then .error "the Cast device closed the connection"
  else
    let len := beNat (data.take 4)
    if len = 0 ∨ len > maxFrame then .error "a Cast message was the wrong size"
    else if (data.drop 4).length < len then .error "the Cast device closed the connection"
    else (decode ((data.drop 4).take len)).map fun message => (message, (data.drop 4).drop len)

end Irori.Cast
