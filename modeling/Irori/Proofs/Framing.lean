import Irori.Cast.Proto

/-!
# Cast frames

Protobuf's fields, whatever they are and however their numbers are padded, and what a message of
them says: the last of each. Decoding gives that, and an error where a field is cut short.
-/

namespace Irori.Cast.Proofs

/-- Seven bits a byte, least first; all but the last are marked. -/
def groupBytes : List (Fin 128) → Bytes
  | [] => []
  | [g] => [UInt8.ofNat g]
  | g :: g' :: gs => UInt8.ofNat (g + 128) :: groupBytes (g' :: gs)

def groupValue : List (Fin 128) → ℕ
  | [] => 0
  | g :: gs => g + 128 * groupValue gs

/-- A number as protobuf has it: in at most ten bytes, possibly more than it needs. -/
structure Varint where
  groups : List (Fin 128)
  nonempty : groups ≠ []
  short : groups.length ≤ 10

def Varint.bytes (v : Varint) : Bytes := groupBytes v.groups

def Varint.value (v : Varint) : ℕ := groupValue v.groups % 2 ^ 64

def shiftsFrom (i : ℕ) : List ℕ := (List.range' i (10 - i)).map (7 * ·)

lemma shiftsFrom_cons {i : ℕ} (h : i < 10) : shiftsFrom i = 7 * i :: shiftsFrom (i + 1) := by
  obtain ⟨n, hn⟩ : ∃ n, 10 - i = n + 1 := ⟨10 - i - 1, by omega⟩
  have hn' : 10 - (i + 1) = n := by omega
  rw [shiftsFrom, hn, List.range'_succ, List.map_cons, shiftsFrom, hn']

lemma last_byte : ∀ g : Fin 128, (UInt8.ofNat g).toNat &&& 0x7f = g ∧
    (UInt8.ofNat g).toNat &&& 0x80 = 0 := by decide

lemma marked_byte : ∀ g : Fin 128, (UInt8.ofNat (g + 128)).toNat &&& 0x7f = g ∧
    (UInt8.ofNat (g + 128)).toNat &&& 0x80 ≠ 0 := by decide

lemma or_shift {value i b : ℕ} (hvalue : value < 2 ^ (7 * i)) (hi : i < 10) :
    value ||| (b <<< (7 * i)) % 2 ^ 64 = (value + 2 ^ (7 * i) * b) % 2 ^ 64 := by
  have hsplit : (2 : ℕ) ^ 64 = 2 ^ (7 * i) * 2 ^ (64 - 7 * i) := by
    rw [← pow_add]
    congr 1
    omega
  have hpos : 0 < (2 : ℕ) ^ (7 * i) := by positivity
  rw [Nat.shiftLeft_eq, mul_comm b, hsplit, Nat.mul_mod_mul_left, Nat.or_comm,
    ← Nat.two_pow_add_eq_or_of_lt hvalue, Nat.mod_mul, Nat.add_mul_mod_self_left,
    Nat.mod_eq_of_lt hvalue, Nat.add_mul_div_left _ _ hpos, Nat.div_eq_of_lt hvalue, zero_add,
    add_comm]

lemma readVarintAt_groups {gs : List (Fin 128)} (hne : gs ≠ []) : ∀ {i value : ℕ} (rest : Bytes),
    i + gs.length ≤ 10 → value < 2 ^ (7 * i) →
    readVarintAt value (shiftsFrom i) (groupBytes gs ++ rest) =
      .ok ((value + 2 ^ (7 * i) * groupValue gs) % 2 ^ 64, rest) := by
  induction gs with
  | nil => exact absurd rfl hne
  | cons g gs ih =>
    intro i value rest hlen hvalue
    rw [List.length_cons] at hlen
    have hi : i < 10 := by omega
    rw [shiftsFrom_cons hi]
    cases gs with
    | nil =>
      obtain ⟨hlow, hlast⟩ := last_byte g
      rw [groupBytes, List.cons_append, readVarintAt, hlow, if_pos hlast, or_shift hvalue hi]
      rfl
    | cons g' gs =>
      obtain ⟨hlow, hmarked⟩ := marked_byte g
      rw [groupBytes, List.cons_append, readVarintAt, hlow, if_neg hmarked, or_shift hvalue hi]
      have hnext : (value + 2 ^ (7 * i) * (g : ℕ)) % 2 ^ 64 < 2 ^ (7 * (i + 1)) := by
        refine (Nat.mod_le _ _).trans_lt ?_
        have hg := g.2
        have hpow : (2 : ℕ) ^ (7 * (i + 1)) = 2 ^ (7 * i) * 128 := by
          rw [Nat.mul_succ, pow_add]
          rfl
        rw [hpow]
        have hmul := Nat.mul_le_mul_left (2 ^ (7 * i)) (show (g : ℕ) + 1 ≤ 128 by omega)
        rw [Nat.mul_succ] at hmul
        omega
      rw [ih (by simp) rest (by omega) hnext, Nat.mod_add_mod]
      congr 3
      have hall : groupValue (g :: g' :: gs) = g + 128 * groupValue (g' :: gs) := rfl
      rw [hall, Nat.mul_succ, pow_add]
      ring

lemma readVarint_bytes (v : Varint) (rest : Bytes) :
    readVarint (v.bytes ++ rest) = .ok (v.value, rest) := by
  have hread := readVarintAt_groups v.nonempty rest ((Nat.zero_add _).trans_le v.short)
    (Nat.two_pow_pos (7 * 0))
  rw [Nat.zero_add, Nat.mul_zero, Nat.pow_zero, Nat.one_mul] at hread
  exact hread

lemma groupBytes_length : ∀ gs : List (Fin 128), (groupBytes gs).length = gs.length
  | [] => rfl
  | [_] => rfl
  | _ :: g' :: gs => by rw [groupBytes, List.length_cons, groupBytes_length (g' :: gs)]; rfl

lemma readVarintAt_cut {gs : List (Fin 128)} : ∀ {i value n : ℕ}, i + gs.length ≤ 10 →
    n < gs.length → ∃ e, readVarintAt value (shiftsFrom i) ((groupBytes gs).take n) = .error e := by
  induction gs with
  | nil => intro i value n _ hn; cases hn
  | cons g gs ih =>
    intro i value n hlen hn
    rw [List.length_cons] at hlen hn
    rw [shiftsFrom_cons (by omega)]
    cases n with
    | zero => exact ⟨_, rfl⟩
    | succ n =>
      cases gs with
      | nil => simp at hn
      | cons g' gs =>
        obtain ⟨-, hmarked⟩ := marked_byte g
        rw [groupBytes, List.take_succ_cons, readVarintAt, if_neg hmarked]
        exact ih (by omega) (by omega)

lemma readVarint_cut (v : Varint) {n : ℕ} (h : n < v.bytes.length) :
    ∃ e, readVarint (v.bytes.take n) = .error e := by
  rw [Varint.bytes, groupBytes_length] at h
  exact readVarintAt_cut ((Nat.zero_add _).trans_le v.short) h

def digits (n : ℕ) : List (Fin 128) :=
  if n < 128 then [⟨n % 128, Nat.mod_lt _ (by decide)⟩]
  else ⟨n % 128, Nat.mod_lt _ (by decide)⟩ :: digits (n / 128)
termination_by n
decreasing_by exact Nat.div_lt_self (by omega) (by decide)

lemma digits_ne_nil (n : ℕ) : digits n ≠ [] := by
  rw [digits]
  split_ifs <;> simp

lemma groupValue_digits (n : ℕ) : groupValue (digits n) = n := by
  induction n using Nat.strong_induction_on with
  | _ n ih =>
    rw [digits]
    split_ifs with h
    · simp only [groupValue]
      omega
    · have hdiv := ih (n / 128) (by omega)
      simp only [groupValue, hdiv]
      omega

lemma digits_length {k n : ℕ} (h : n < 2 ^ (7 * (k + 1))) : (digits n).length ≤ k + 1 := by
  induction k generalizing n with
  | zero =>
    rw [digits, if_pos (by simpa using h)]
    rfl
  | succ k ih =>
    rw [digits]
    split_ifs
    · simp
    · have hpow : (2 : ℕ) ^ (7 * (k + 1 + 1)) = 2 ^ (7 * (k + 1)) * 128 := by
        rw [Nat.mul_succ, pow_add]
        rfl
      rw [hpow] at h
      have hdiv := ih (Nat.div_lt_of_lt_mul (by omega) : n / 128 < 2 ^ (7 * (k + 1)))
      rw [List.length_cons]
      omega

lemma writeVarint_eq (n : ℕ) : writeVarint n = groupBytes (digits n) := by
  induction n using Nat.strong_induction_on with
  | _ n ih =>
    have hlow : n &&& 0x7f = n % 128 := Nat.and_two_pow_sub_one_eq_mod n 7
    have hshift : n >>> 7 = n / 128 := Nat.shiftRight_eq_div_pow n 7
    rw [writeVarint, digits]
    rw [hlow, hshift]
    by_cases h : n < 128
    · rw [if_pos h, if_neg (by omega)]
      rfl
    · have hmark : n % 128 ||| 0x80 = n % 128 + 128 := by
        have hor : 128 + n % 128 = 128 ||| n % 128 :=
          Nat.two_pow_add_eq_or_of_lt (Nat.mod_lt n (Nat.two_pow_pos 7)) 1
        rw [Nat.or_comm, ← hor, Nat.add_comm]
      rw [if_neg h, if_pos (by omega), hmark, ih (n / 128) (by omega)]
      cases hdigits : digits (n / 128) with
      | nil => exact absurd hdigits (digits_ne_nil _)
      | cons g gs => rfl

def Varint.of (n : ℕ) (h : n < 2 ^ 64) : Varint where
  groups := digits n
  nonempty := digits_ne_nil n
  short := digits_length (h.trans (by decide))

lemma value_of {n : ℕ} (h : n < 2 ^ 64) : (Varint.of n h).value = n := by
  rw [Varint.value, Varint.of, groupValue_digits, Nat.mod_eq_of_lt h]

lemma bytes_of {n : ℕ} (h : n < 2 ^ 64) : (Varint.of n h).bytes = writeVarint n :=
  (writeVarint_eq n).symm

inductive Content
  | varint (value : Varint)
  | fixed64 (bytes : Bytes) (length_eq : bytes.length = 8)
  | text (len : Varint) (bytes : Bytes) (length_eq : len.value = bytes.length)
  | fixed32 (bytes : Bytes) (length_eq : bytes.length = 4)

def Content.wire : Content → ℕ
  | varint _ => 0
  | fixed64 _ _ => 1
  | text _ _ _ => 2
  | fixed32 _ _ => 5

def Content.bytes : Content → Bytes
  | varint value => value.bytes
  | fixed64 bytes _ => bytes
  | text len bytes _ => len.bytes ++ bytes
  | fixed32 bytes _ => bytes

structure Field where
  key : Varint
  content : Content
  wire_eq : key.value % 8 = content.wire

namespace Field

variable (f : Field)

def number : ℕ := f.key.value / 8

def bytes : Bytes := f.key.bytes ++ f.content.bytes

def texts (number : ℕ) : Option Bytes :=
  match f.content with
  | .text _ bytes _ => if f.number = number then some bytes else none
  | _ => none

def payloadType : Option ℕ :=
  match f.content with
  | .varint value => if f.number = 5 then some value.value else none
  | _ => none

def garbled : Bool := [2, 3, 4, 6].any fun number => (f.texts number).any (Utf8.decode · = none)

def known : Bool :=
  f.payloadType.isSome || [2, 3, 4, 6].any fun number => (f.texts number).isSome

end Field

def lastText (fields : List Field) (number : ℕ) : Option String :=
  (fields.filterMap fun f => (f.texts number).bind Utf8.decode).getLast?

/-- What a message says: the last of each of its fields. -/
def meaning (fields : List Field) : Except String CastMessage :=
  if fields.any Field.garbled then .error "a Cast field wasn't text"
  else if (fields.filterMap Field.payloadType).getLast?.getD 0 ≠ 0 then
    .error "a Cast message wasn't text"
  else match lastText fields 4 with
    | none => .error "a Cast message had no namespace"
    | some nameSpace => .ok
      { sourceId := (lastText fields 2).getD ""
        destinationId := (lastText fields 3).getD ""
        nameSpace
        payload := (lastText fields 6).getD "" }

def heard (parts : Parts) (f : Field) : Parts where
  source := ((f.texts 2).bind Utf8.decode).or parts.source
  destination := ((f.texts 3).bind Utf8.decode).or parts.destination
  nameSpace := ((f.texts 4).bind Utf8.decode).or parts.nameSpace
  payload := ((f.texts 6).bind Utf8.decode).or parts.payload
  payloadType := f.payloadType.getD parts.payloadType

lemma readBytes_text (len : Varint) (bytes rest : Bytes) (h : len.value = bytes.length) :
    readBytes (len.bytes ++ bytes ++ rest) = .ok (bytes, rest) := by
  have hlt : ¬ (bytes ++ rest).length < len.value := by
    rw [List.length_append]
    omega
  rw [readBytes, List.append_assoc, readVarint_bytes]
  change (if (bytes ++ rest).length < len.value then Except.error "a Cast message ended early"
    else Except.ok ((bytes ++ rest).splitAt len.value)) = _
  rw [if_neg hlt, List.splitAt_eq, h, List.take_left, List.drop_left]

lemma skip_fixed (bytes rest : Bytes) : skip (bytes ++ rest) bytes.length = .ok rest := by
  rw [skip, if_neg (by simp), List.drop_left]

lemma key_parts (f : Field) : f.key.value >>> 3 = f.number ∧ f.key.value &&& 7 = f.content.wire :=
  ⟨Nat.shiftRight_eq_div_pow _ 3, (Nat.and_two_pow_sub_one_eq_mod _ 3).trans f.wire_eq⟩

lemma readField_bytes (parts : Parts) (f : Field) (rest : Bytes) :
    readField parts (f.bytes ++ rest) =
      if f.garbled then .error "a Cast field wasn't text" else .ok (heard parts f, rest) := by
  obtain ⟨hnumber, hwire⟩ := key_parts f
  have hkey := readVarint_bytes f.key (f.content.bytes ++ rest)
  rw [readField, Field.bytes, List.append_assoc, hkey]
  change (if _ then _ else _) = _
  dsimp only
  rw [hnumber, hwire]
  obtain ⟨n, hn⟩ : ∃ n, f.number = n := ⟨_, rfl⟩
  rw [hn]
  cases hcontent : f.content with
  | varint value =>
    have hgarbled : f.garbled = false := by simp [Field.garbled, Field.texts, hcontent]
    simp only [Content.wire, Content.bytes, readVarint_bytes, hgarbled, heard, Field.texts,
      Field.payloadType, hcontent, hn, Bind.bind, Except.bind]
    by_cases h1 : n = 1
    · subst h1
      rfl
    · by_cases h5 : n = 5
      · subst h5
        rfl
      · simp [h1, h5]
        rfl
  | fixed64 bytes hlen =>
    have hgarbled : f.garbled = false := by simp [Field.garbled, Field.texts, hcontent]
    have hskip := skip_fixed bytes rest
    rw [hlen] at hskip
    simp [Content.wire, Content.bytes, hskip, hgarbled, heard, Field.texts, Field.payloadType,
      hcontent, Bind.bind, Except.bind]
    rfl
  | text len bytes hlen =>
    simp only [Content.wire, Content.bytes, readBytes_text len bytes rest hlen, Bind.bind,
      Except.bind, Field.garbled, heard, Field.texts, Field.payloadType, hcontent, hn]
    by_cases hmem : n ∈ [2, 3, 4, 6]
    · cases htext : Utf8.decode bytes with
      | none => fin_cases hmem <;> simp [htext]
      | some text =>
        fin_cases hmem <;> simp [htext, Parts.setText] <;> rfl
    · simp only [List.mem_cons, List.not_mem_nil, or_false, not_or] at hmem
      simp [hmem]
      rfl
  | fixed32 bytes hlen =>
    have hgarbled : f.garbled = false := by simp [Field.garbled, Field.texts, hcontent]
    have hskip := skip_fixed bytes rest
    rw [hlen] at hskip
    simp [Content.wire, Content.bytes, hskip, hgarbled, heard, Field.texts, Field.payloadType,
      hcontent, Bind.bind, Except.bind]
    rfl

def bytesOf (fields : List Field) : Bytes := fields.flatMap Field.bytes

lemma bytes_ne_nil (f : Field) : f.bytes ≠ [] := by
  have hlen : f.key.bytes.length = f.key.groups.length := groupBytes_length _
  intro hnil
  have hkey : f.key.bytes = [] := (List.append_eq_nil_iff.1 hnil).1
  rw [hkey] at hlen
  exact f.key.nonempty (List.length_eq_zero_iff.1 hlen.symm)

lemma decodeFrom_append (parts : Parts) (fields : List Field) (rest : Bytes) :
    decodeFrom parts (bytesOf fields ++ rest) =
      if fields.any Field.garbled then .error "a Cast field wasn't text"
      else decodeFrom (fields.foldl heard parts) rest := by
  induction fields generalizing parts with
  | nil => rfl
  | cons f fields ih =>
    have hread := readField_bytes parts f (bytesOf fields ++ rest)
    have hcons : bytesOf (f :: fields) ++ rest = f.bytes ++ (bytesOf fields ++ rest) := by
      simp [bytesOf]
    rw [hcons]
    cases hbytes : f.bytes ++ (bytesOf fields ++ rest) with
    | nil => exact absurd (List.append_eq_nil_iff.1 hbytes).1 (bytes_ne_nil f)
    | cons byte more =>
      rw [hbytes] at hread
      rw [decodeFrom]
      split
      · next e herror =>
        rw [herror] at hread
        split at hread
        · next hgarbled =>
          cases hread
          rw [if_pos (by simp [hgarbled])]
        · cases hread
      · next parts' rest' hok =>
        rw [hok] at hread
        split at hread
        · cases hread
        · next hgarbled =>
          cases hread
          simp [ih, hgarbled]

lemma foldl_heard (fields : List Field) (parts : Parts) :
    fields.foldl heard parts =
      { source := (lastText fields 2).or parts.source
        destination := (lastText fields 3).or parts.destination
        nameSpace := (lastText fields 4).or parts.nameSpace
        payload := (lastText fields 6).or parts.payload
        payloadType := (fields.filterMap Field.payloadType).getLast?.getD parts.payloadType } := by
  have hlast : ∀ (f : Field) (fields : List Field) (number : ℕ) (before : Option String),
      (lastText fields number).or (((f.texts number).bind Utf8.decode).or before) =
        (lastText (f :: fields) number).or before := by
    intro f fields number before
    unfold lastText
    cases htext : (f.texts number).bind Utf8.decode with
    | none => simp [htext]
    | some text =>
      rw [List.filterMap_cons, htext]
      dsimp only
      rw [List.getLast?_cons]
      cases (fields.filterMap fun f => (f.texts number).bind Utf8.decode).getLast? <;> rfl
  induction fields generalizing parts with
  | nil => rfl
  | cons f fields ih =>
    rw [List.foldl_cons, ih]
    simp only [heard, hlast]
    congr 1
    cases htype : f.payloadType with
    | none => simp [htype]
    | some value =>
      rw [List.filterMap_cons, htype]
      dsimp only
      rw [List.getLast?_cons]
      cases (fields.filterMap Field.payloadType).getLast? <;> rfl

lemma decode_bytesOf (fields : List Field) : decode (bytesOf fields) = meaning fields := by
  have hall := decodeFrom_append .none fields []
  rw [List.append_nil] at hall
  rw [decode, hall, meaning]
  by_cases hgarbled : fields.any Field.garbled = true
  · rw [if_pos hgarbled, if_pos hgarbled]
    rfl
  · rw [if_neg hgarbled, if_neg hgarbled, decodeFrom, foldl_heard]
    simp only [Parts.none, Option.or_none, Bind.bind, Except.bind]
    cases lastText fields 4 <;> rfl

lemma readBytes_cut (len : Varint) (bytes : Bytes) (hlen : len.value = bytes.length) {m : ℕ}
    (hm : m < (len.bytes ++ bytes).length) :
    ∃ e, readBytes ((len.bytes ++ bytes).take m) = .error e := by
  rw [List.length_append] at hm
  by_cases hshort : m < len.bytes.length
  · obtain ⟨e, he⟩ := readVarint_cut len hshort
    refine ⟨e, ?_⟩
    rw [readBytes, List.take_append_of_le_length hshort.le, he]
    rfl
  · obtain ⟨k, rfl⟩ : ∃ k, m = len.bytes.length + k := ⟨m - len.bytes.length, by omega⟩
    refine ⟨"a Cast message ended early", ?_⟩
    rw [readBytes, List.take_length_add_append, readVarint_bytes]
    simp only [Bind.bind, Except.bind]
    rw [if_pos]
    rw [List.length_take]
    omega

lemma skip_cut (bytes : Bytes) {m k : ℕ} (hm : m < k) :
    skip (bytes.take m) k = .error "a Cast message ended early" := by
  have hshort := (List.length_take_le m bytes).trans_lt hm
  rw [skip, if_pos hshort]

lemma readField_cut (parts : Parts) (f : Field) {n : ℕ} (h : n < f.bytes.length) :
    ∃ e, readField parts (f.bytes.take n) = .error e := by
  rw [Field.bytes, List.length_append] at h
  by_cases hkey : n < f.key.bytes.length
  · obtain ⟨e, he⟩ := readVarint_cut f.key hkey
    refine ⟨e, ?_⟩
    rw [readField, Field.bytes, List.take_append_of_le_length hkey.le, he]
    rfl
  · obtain ⟨m, rfl⟩ : ∃ m, n = f.key.bytes.length + m := ⟨n - f.key.bytes.length, by omega⟩
    obtain ⟨hnumber, hwire⟩ := key_parts f
    rw [readField, Field.bytes, List.take_length_add_append, readVarint_bytes]
    simp only [Bind.bind, Except.bind, hnumber, hwire]
    have hm : m < f.content.bytes.length := by omega
    cases hcontent : f.content with
    | varint value =>
      rw [hcontent] at hm
      obtain ⟨e, he⟩ := readVarint_cut value hm
      refine ⟨e, ?_⟩
      simp only [Content.wire, Content.bytes, he]
      split_ifs <;> first | rfl | simp_all
    | fixed64 bytes hlen =>
      rw [hcontent, Content.bytes, hlen] at hm
      simp [Content.wire, Content.bytes, skip_cut bytes hm]
    | text len bytes hlen =>
      rw [hcontent] at hm
      obtain ⟨e, he⟩ := readBytes_cut len bytes hlen hm
      refine ⟨e, ?_⟩
      simp only [Content.wire, Content.bytes, he]
      split_ifs <;> first | rfl | simp_all
    | fixed32 bytes hlen =>
      rw [hcontent, Content.bytes, hlen] at hm
      simp [Content.wire, Content.bytes, skip_cut bytes hm]

lemma decode_cut (fields : List Field) (f : Field) {n : ℕ} (hpos : 0 < n)
    (h : n < f.bytes.length) : ∃ e, decode (bytesOf fields ++ f.bytes.take n) = .error e := by
  rw [decode, decodeFrom_append]
  by_cases hgarbled : fields.any Field.garbled = true
  · rw [if_pos hgarbled]
    exact ⟨_, rfl⟩
  · rw [if_neg hgarbled]
    obtain ⟨e, he⟩ := readField_cut (fields.foldl heard .none) f h
    refine ⟨e, ?_⟩
    have hlen : (f.bytes.take n).length = n := by
      rw [List.length_take]
      omega
    cases hbytes : f.bytes.take n with
    | nil =>
      rw [hbytes] at hlen
      exact absurd hlen hpos.ne
    | cons byte more =>
      rw [hbytes] at he
      rw [decodeFrom]
      split
      · next herror =>
        rw [he] at herror
        cases herror
        rfl
      · next hok =>
        rw [he] at hok
        cases hok

lemma filterMap_known {β : Type} {g : Field → Option β} {fields : List Field}
    (h : ∀ f, g f ≠ none → f.known = true) :
    (fields.filter Field.known).filterMap g = fields.filterMap g := by
  induction fields with
  | nil => rfl
  | cons f fields ih =>
    by_cases hknown : f.known = true
    · rw [List.filter_cons_of_pos hknown, List.filterMap_cons, List.filterMap_cons, ih]
    · have hnone : g f = none := by
        by_contra hne
        exact hknown (h f hne)
      rw [List.filter_cons_of_neg hknown, List.filterMap_cons, hnone, ih]

lemma known_of_texts {f : Field} {number : ℕ} (hnumber : number ∈ [2, 3, 4, 6])
    (h : f.texts number ≠ none) : f.known = true := by
  rw [Field.known, Bool.or_eq_true, List.any_eq_true]
  exact .inr ⟨number, hnumber, Option.isSome_iff_ne_none.2 h⟩

lemma lastText_known {fields : List Field} {number : ℕ} (hnumber : number ∈ [2, 3, 4, 6]) :
    lastText (fields.filter Field.known) number = lastText fields number := by
  rw [lastText, lastText, filterMap_known]
  intro f hf
  refine known_of_texts hnumber fun hnone => hf ?_
  rw [hnone]
  rfl

lemma meaning_known (fields : List Field) :
    meaning (fields.filter Field.known) = meaning fields := by
  have hgarbled : (fields.filter Field.known).any Field.garbled = fields.any Field.garbled := by
    rw [List.any_filter]
    congr 1
    funext f
    by_cases hf : f.garbled = true
    · obtain ⟨number, hnumber, htext⟩ := List.any_eq_true.1 hf
      rw [known_of_texts hnumber fun hnone => by simp [hnone] at htext, Bool.true_and]
    · rw [Bool.not_eq_true] at hf
      rw [hf, Bool.and_false]
  have htype : (fields.filter Field.known).filterMap Field.payloadType =
      fields.filterMap Field.payloadType := by
    refine filterMap_known fun f hf => ?_
    rw [Field.known, Option.isSome_iff_ne_none.2 hf, Bool.true_or]
  simp only [meaning, hgarbled, htype, lastText_known (show 2 ∈ [2, 3, 4, 6] by decide),
    lastText_known (show 3 ∈ [2, 3, 4, 6] by decide),
    lastText_known (show 4 ∈ [2, 3, 4, 6] by decide),
    lastText_known (show 6 ∈ [2, 3, 4, 6] by decide)]

def textField (number : Fin 16) (text : String) (h : (Utf8.encode text).length < 2 ^ 64) :
    Field where
  key := .of (number * 8 + 2) (by omega)
  content := .text (.of _ h) (Utf8.encode text) (value_of h)
  wire_eq := by
    rw [value_of, Content.wire]
    omega

def zeroField (number : Fin 16) : Field where
  key := .of (number * 8) (by omega)
  content := .varint (.of 0 (by decide))
  wire_eq := by
    rw [value_of, Content.wire]
    omega

/-- The body of a message is no longer than a frame. -/
def Fits (message : CastMessage) : Prop := (encodeBody message).length ≤ maxFrame

lemma writeString_length (number : ℕ) (text : String) :
    (Utf8.encode text).length ≤ (writeString number text).length := by
  rw [writeString, List.length_append]
  exact Nat.le_add_left _ _

variable {message : CastMessage}

lemma Fits.lt (h : Fits message) : (Utf8.encode message.sourceId).length < 2 ^ 64 ∧
    (Utf8.encode message.destinationId).length < 2 ^ 64 ∧
    (Utf8.encode message.nameSpace).length < 2 ^ 64 ∧
    (Utf8.encode message.payload).length < 2 ^ 64 := by
  have hsource := writeString_length 2 message.sourceId
  have hdestination := writeString_length 3 message.destinationId
  have hnamespace := writeString_length 4 message.nameSpace
  have hpayload := writeString_length 6 message.payload
  have hmax : maxFrame < 2 ^ 64 := by decide
  simp only [Fits, encodeBody, List.length_append] at h
  omega

def fieldsOf (message : CastMessage) (h : Fits message) : List Field :=
  [zeroField 1, textField 2 message.sourceId h.lt.1,
    textField 3 message.destinationId h.lt.2.1, textField 4 message.nameSpace h.lt.2.2.1,
    zeroField 5, textField 6 message.payload h.lt.2.2.2]

lemma textField_bytes (number : Fin 16) (text : String) (h : (Utf8.encode text).length < 2 ^ 64) :
    (textField number text h).bytes = writeString number text := by
  have hkey : (number : ℕ) <<< 3 ||| 2 = number * 8 + 2 := by
    revert number
    decide
  have hlt := number.isLt
  rw [writeString, hkey, List.append_assoc, ← bytes_of (by omega), ← bytes_of h]
  rfl

lemma zeroField_bytes (number : Fin 16) : (zeroField number).bytes = writeVarintField number 0 := by
  have hkey : (number : ℕ) <<< 3 = number * 8 := by
    revert number
    decide
  have hlt := number.isLt
  rw [writeVarintField, hkey, ← bytes_of (by omega), ← bytes_of (by decide)]
  rfl

lemma bytesOf_fieldsOf (h : Fits message) : bytesOf (fieldsOf message h) = encodeBody message := by
  simp [bytesOf, fieldsOf, textField_bytes, zeroField_bytes, encodeBody]

lemma textField_texts (number : Fin 16) (text : String) (h : (Utf8.encode text).length < 2 ^ 64)
    (n : ℕ) : (textField number text h).texts n =
      if (number : ℕ) = n then some (Utf8.encode text) else none := by
  have hnumber : (textField number text h).number = number := by
    rw [Field.number, textField, value_of]
    omega
  rw [Field.texts, hnumber]
  rfl

lemma zeroField_payloadType (number : Fin 16) :
    (zeroField number).payloadType = if (number : ℕ) = 5 then some 0 else none := by
  have hnumber : (zeroField number).number = number := by
    rw [Field.number, zeroField, value_of]
    omega
  have hvalue : (Varint.of 0 (by decide)).value = 0 := value_of _
  rw [Field.payloadType, hnumber, zeroField]
  dsimp only
  rw [hvalue]

lemma meaning_fieldsOf (h : Fits message) : meaning (fieldsOf message h) = .ok message := by
  have hzero : ∀ number n, (zeroField number).texts n = none := fun _ _ => rfl
  have htype : ∀ number text hlt, (textField number text hlt).payloadType = none :=
    fun _ _ _ => rfl
  simp [meaning, fieldsOf, lastText, Field.garbled, textField_texts, zeroField_payloadType, hzero,
    htype, Utf8.decode_of_encode]

lemma beNat_beBytes {n : ℕ} (h : n < 2 ^ 32) : beNat (beBytes n) = n := by
  simp only [beNat, beBytes, List.foldl_cons, List.foldl_nil, UInt8.toNat_ofNat']
  omega

lemma encodeBody_ne_nil : encodeBody message ≠ [] := by
  rw [encodeBody, writeVarintField, writeVarint_eq]
  cases hdigits : digits (1 <<< 3) with
  | nil => exact absurd hdigits (digits_ne_nil _)
  | cons g gs => cases gs <;> simp [groupBytes]

/-- The frame of a message is read as that message, by itself and with more behind it, and its first
four bytes are the length of the rest. Fields that are nobody's change nothing, and the last of a
field repeated counts. A field cut short is an error, and what is read is what there is. -/
theorem decode_encode :
    (∀ message, Fits message → ∀ rest,
      beNat ((encode message).take 4) = ((encode message).drop 4).length ∧
      decode ((encode message).drop 4) = .ok message ∧
      readFrame (encode message ++ rest) = .ok (message, rest)) ∧
    (∀ fields, decode (bytesOf fields) = meaning fields) ∧
    (∀ (message : CastMessage) (h : Fits message) (fields : List Field),
      fields.filter Field.known = (fieldsOf message h).filter Field.known →
        decode (bytesOf fields) = .ok message) ∧
    (∀ (fields : List Field) (f : Field) (n : ℕ), 0 < n → n < f.bytes.length →
      ∃ e, decode (bytesOf fields ++ f.bytes.take n) = .error e) ∧
    ∀ (parts parts' : Parts) (data rest : Bytes), readField parts data = .ok (parts', rest) →
      ∃ used, used ≠ [] ∧ data = used ++ rest := by
  refine ⟨fun message h rest => ?_, decode_bytesOf, fun message h fields hsame => ?_,
    fun fields f n hpos hn => decode_cut fields f hpos hn, fun _ _ _ _ h => readField_leaves h⟩
  · have hmin : min (encodeBody message).length (2 ^ 32 - 1) = (encodeBody message).length := by
      have hmax : maxFrame < 2 ^ 32 - 1 := by decide
      exact min_eq_left (h.trans hmax.le)
    have hpos : 0 < (encodeBody message).length := List.length_pos_of_ne_nil encodeBody_ne_nil
    have hbytes : encode message = beBytes (encodeBody message).length ++ encodeBody message := by
      rw [encode, hmin]
    have hlen : beNat (beBytes (encodeBody message).length) = (encodeBody message).length := by
      refine beNat_beBytes (lt_of_le_of_lt h ?_)
      decide
    have hdecode : decode (encodeBody message) = .ok message := by
      rw [← bytesOf_fieldsOf h, decode_bytesOf, meaning_fieldsOf]
    have htake : ∀ body : Bytes, (beBytes (encodeBody message).length ++ body).take 4 =
        beBytes (encodeBody message).length := fun _ => rfl
    have hdrop : ∀ body : Bytes, (beBytes (encodeBody message).length ++ body).drop 4 = body :=
      fun _ => rfl
    rw [hbytes]
    refine ⟨?_, ?_, ?_⟩
    · rw [htake, hdrop, hlen]
    · rw [hdrop, hdecode]
    · rw [List.append_assoc, readFrame, if_neg (by simp [beBytes]), htake, hdrop, hlen]
      rw [if_neg (not_or.2 ⟨hpos.ne', not_lt.2 h⟩), if_neg (by simp), List.take_left,
        List.drop_left, hdecode]
      rfl
  · rw [decode_bytesOf, ← meaning_known, hsame, meaning_known, meaning_fieldsOf]

end Irori.Cast.Proofs
