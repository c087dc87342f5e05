import Irori.Backup.Types
import Irori.Lib.Stream

/-!
# An encrypted backup

The header is public, and is the associated data of every chunk. The body is cut into chunks that
are sealed one by one. The writer holds a full chunk back until more data comes, and the reader
reads one block ahead: both have to know which one is the last.
-/

namespace Irori.Backup

abbrev Bytes := List UInt8

def magic : Bytes := [0x49, 0x52, 0x4f, 0x52, 0x49, 0x42, 0x4b, 0x01]

def chunk : Nat := 64 * 1024
def tag : Nat := 16
def nonceLength : Nat := 19
def maxHeader : Nat := 64 * 1024

def chunked : Stream.Format := ⟨chunk, tag, 2 ^ 32 - 1, by decide⟩

/-- What the recovery key is made of: Crockford's base32, which has no I, L, O or U. -/
def alphabet : List Char := "0123456789ABCDEFGHJKMNPQRSTVWXYZ".toList

structure Header where
  format : Nat
  cipher : String
  kdf : String
  mCost : Nat
  tCost : Nat
  pCost : Nat
  salt : String
  nonce : String
  meta_ : Manifest

/-- What the format is made of that isn't Irori's: how a header and bytes are written as text, the
key derivation, and the cipher. -/
structure Suite (Key : Type) where
  writeHeader : Header → Bytes
  readHeader : Bytes → Option Header
  encode : Bytes → String
  decode : String → Option Bytes
  /-- The key from a text and a salt, at so much memory, time and parallelism. -/
  derive : (mCost tCost pCost : Nat) → String → Bytes → Option Key
  /-- A chunk sealed: its key, nonce, position, whether it is the last, and associated data. -/
  put : Key → Bytes → Nat → Bool → Bytes → Bytes → Bytes
  get : Key → Bytes → Nat → Bool → Bytes → Bytes → Option Bytes
  length_put : ∀ key nonce position last aad message,
    (put key nonce position last aad message).length = message.length + tag

/-- A letter as it is read: no case, and Crockford's look-alikes. -/
def readLetter (c : Char) : Char :=
  match c.toUpper with
  | 'O' => '0'
  | 'I' => '1'
  | 'L' => '1'
  | c => c

def grouped : List Char → List Char
  | a :: b :: c :: d :: e :: f :: rest => a :: b :: c :: d :: e :: '-' :: grouped (f :: rest)
  | letters => letters

def squeezed (typed : String) : List Char :=
  (typed.toList.filter fun c => c != '-' && c != ' ').map readLetter

def normalizeKey (typed : String) : String :=
  if (squeezed typed).length = 25 ∧ (squeezed typed).all alphabet.contains then
    String.ofList (grouped (squeezed typed))
  else typed

section

variable {Key : Type} (suite : Suite Key)

def deriveKey (key : String) (header : Header) : Except String Key :=
  match suite.decode header.salt with
  | none => .error "the header's salt is damaged"
  | some salt =>
    match suite.derive header.mCost header.tCost header.pCost (normalizeKey key) salt with
    | none => .error "couldn't derive the key"
    | some key => .ok key

def beBytes (n : Nat) : Bytes :=
  [UInt8.ofNat (n / 2 ^ 24), UInt8.ofNat (n / 2 ^ 16), UInt8.ofNat (n / 2 ^ 8), UInt8.ofNat n]

def ofBeBytes (bytes : Bytes) : Nat := bytes.foldl (fun n b => n * 256 + b.toNat) 0

structure Noise where
  salt : Bytes
  nonce : Bytes
  salt_length : salt.length = 16
  nonce_length : nonce.length = nonceLength

def Noise.header (noise : Noise) (meta_ : Manifest) : Header where
  format := 2
  cipher := "xchacha20poly1305-stream"
  kdf := "argon2id"
  mCost := 19456
  tCost := 2
  pCost := 1
  salt := suite.encode noise.salt
  nonce := suite.encode noise.nonce
  meta_ := meta_

def aadOf (json : Bytes) : Bytes := magic ++ beBytes json.length ++ json

structure EncryptWriter (Key : Type) where
  out : Bytes
  key : Key
  nonce : Bytes
  position : Nat
  buf : Bytes
  aad : Bytes
  buf_le : buf.length ≤ chunk

def encryptTo (key : String) (meta_ : Manifest) (noise : Noise) :
    Except String (EncryptWriter Key) :=
  let header := noise.header suite meta_
  match deriveKey suite key header with
  | .error why => .error why
  | .ok derived =>
    let aad := aadOf (suite.writeHeader header)
    .ok ⟨aad, derived, noise.nonce, 0, [], aad, Nat.zero_le _⟩

namespace EncryptWriter

def sealNext (w : EncryptWriter Key) : EncryptWriter Key :=
  { w with
    out := w.out ++ suite.put w.key w.nonce w.position false w.aad w.buf
    position := w.position + 1
    buf := []
    buf_le := Nat.zero_le _ }

lemma sealNext_room (w : EncryptWriter Key) : (w.sealNext suite).buf.length < chunk :=
  chunked.chunk_pos

/-- A full chunk is sealed, now that more data proves it isn't the last one. -/
def makeRoom (w : EncryptWriter Key) :
    Except String { w : EncryptWriter Key // w.buf.length < chunk } :=
  if h : w.buf.length = chunk then
    if w.position = chunked.cap then .error "couldn't seal a chunk"
    else .ok ⟨w.sealNext suite, w.sealNext_room suite⟩
  else .ok ⟨w, lt_of_le_of_ne w.buf_le h⟩

def extend (w : EncryptWriter Key) (bytes : Bytes)
    (h : w.buf.length + bytes.length ≤ chunk) : EncryptWriter Key :=
  { w with
    buf := w.buf ++ bytes
    buf_le := by rwa [List.length_append] }

def write (w : EncryptWriter Key) (rest : Bytes) : Except String (EncryptWriter Key) :=
  if rest = [] then .ok w
  else
    match w.makeRoom suite with
    | .error why => .error why
    | .ok w =>
      let take := min (chunk - w.1.buf.length) rest.length
      write (w.1.extend (rest.take take) (by
        have := w.2
        rw [List.length_take]
        omega)) (rest.drop take)
termination_by rest.length
decreasing_by
  have := w.2
  have := List.length_pos_iff.2 ‹rest ≠ []›
  rw [List.length_drop]
  omega

def finish (w : EncryptWriter Key) : Bytes :=
  w.out ++ suite.put w.key w.nonce w.position true w.aad w.buf

def writeAll (w : EncryptWriter Key) : List Bytes → Except String (EncryptWriter Key)
  | [] => .ok w
  | piece :: pieces =>
    match w.write suite piece with
    | .error why => .error why
    | .ok w => writeAll w pieces

end EncryptWriter

def sealFile (key : String) (meta_ : Manifest) (noise : Noise) (pieces : List Bytes) :
    Except String Bytes :=
  match encryptTo suite key meta_ noise with
  | .error why => .error why
  | .ok w =>
    match w.writeAll suite pieces with
    | .error why => .error why
    | .ok w => .ok (w.finish suite)

/-- What is left to read of a file, and how many bytes after the first each read gives at most. -/
structure Input where
  rest : Bytes
  short : List Nat

namespace Input

/-- One read: at least a byte, where there is one, and maybe fewer than were asked for. -/
def read (input : Input) (n : Nat) : Bytes × Input :=
  match input.short with
  | [] => (input.rest.take n, ⟨input.rest.drop n, []⟩)
  | most :: short =>
    (input.rest.take (min n (most + 1)), ⟨input.rest.drop (min n (most + 1)), short⟩)

def fill (input : Input) (n : Nat) : Bytes × Input :=
  if n = 0 then ([], input)
  else
    let got := input.read n
    if got.1 = [] then got
    else
      let more := fill got.2 (n - got.1.length)
      (got.1 ++ more.1, more.2)
termination_by n
decreasing_by
  have := List.length_pos_iff.2 ‹got.1 ≠ []›
  exact Nat.sub_lt (Nat.pos_of_ne_zero ‹_›) this

lemma fill_eq (input : Input) (n : Nat) :
    (input.fill n).1 = input.rest.take n ∧ (input.fill n).2.rest = input.rest.drop n := by
  induction n using Nat.strongRecOn generalizing input with
  | ind n ih =>
    have hread : ∃ k, k ≤ n ∧ (0 < n → 0 < k) ∧ (input.read n).1 = input.rest.take k ∧
        (input.read n).2.rest = input.rest.drop k := by
      unfold read
      split
      · exact ⟨n, le_rfl, id, rfl, rfl⟩
      · exact ⟨_, Nat.min_le_left _ _, fun hn => Nat.lt_min.2 ⟨hn, Nat.succ_pos _⟩, rfl, rfl⟩
    obtain ⟨k, hkn, hk, hgot, hrest⟩ := hread
    rw [fill]
    split
    · next hn => simp [hn]
    · next hn =>
      dsimp only
      split
      · next hnone =>
        rw [hgot, List.take_eq_nil_iff] at hnone
        obtain hnil : input.rest = [] := hnone.resolve_left (hk (Nat.pos_of_ne_zero hn)).ne'
        simp [hgot, hrest, hnil]
      · next hsome =>
        have hpos := List.length_pos_iff.2 hsome
        obtain ⟨hmore, hleft⟩ := ih (n - (input.read n).1.length)
          (Nat.sub_lt (Nat.pos_of_ne_zero hn) hpos) (input.read n).2
        rw [hmore, hleft, hrest, hgot, List.length_take, List.drop_drop]
        rcases le_total k input.rest.length with hle | hle
        · rw [Nat.min_eq_left hle, Nat.add_sub_cancel' hkn]
          refine ⟨?_, rfl⟩
          conv_rhs => rw [← Nat.add_sub_cancel' hkn, List.take_add]
        · rw [List.drop_eq_nil_of_le hle, List.take_nil, List.append_nil,
            List.take_of_length_le hle, List.take_of_length_le (hle.trans hkn),
            List.drop_eq_nil_of_le (hle.trans (Nat.le_add_right _ _)),
            List.drop_eq_nil_of_le (hle.trans hkn)]
          exact ⟨rfl, rfl⟩

def readExact (input : Input) (n : Nat) (why : String) : Except String (Bytes × Input) :=
  let got := input.fill n
  if got.1.length < n then .error why else .ok got

end Input

def Header.supported (header : Header) : Bool :=
  header.format = 2 ∧ header.cipher = "xchacha20poly1305-stream" ∧ header.kdf = "argon2id"

def readHeader (input : Input) : Except String (Header × Bytes × Input) :=
  match input.readExact 8 "too short to be a backup" with
  | .error why => .error why
  | .ok (start, input) =>
    if start ≠ magic then .error "not an encrypted Irori backup"
    else
      match input.readExact 4 "the header is cut short" with
      | .error why => .error why
      | .ok (len, input) =>
        let len := ofBeBytes len
        if len = 0 ∨ maxHeader < len then .error "the header's length is wrong"
        else
          match input.readExact len "the header is cut short" with
          | .error why => .error why
          | .ok (json, input) =>
            match suite.readHeader json with
            | none => .error "the header is damaged"
            | some header =>
              if header.supported then .ok (header, start ++ beBytes len ++ json, input)
              else .error "this backup was encrypted in a way this Irori can't read"

structure DecryptReader (Key : Type) where
  input : Input
  key : Key
  nonce : Bytes
  /-- The position of the next block, until the last one is opened. -/
  dec : Option Nat
  aad : Bytes
  /-- The next block, read before the current one is opened. -/
  ahead : Option Bytes
  plain : Bytes
  at_ : Nat

def decryptFrom (input : Input) (key : String) (header : Header) (aad : Bytes) :
    Except String (DecryptReader Key) :=
  match deriveKey suite key header with
  | .error why => .error why
  | .ok derived =>
    match (suite.decode header.nonce).filter fun nonce => nonce.length = nonceLength with
    | none => .error "the header's nonce is damaged"
    | some nonce => .ok ⟨input, derived, nonce, some 0, aad, none, [], 0⟩

def wrongKey : String := "wrong key, or the backup is damaged or cut short"

namespace DecryptReader

def current (r : DecryptReader Key) : Bytes × Input :=
  match r.ahead with
  | some block => (block, r.input)
  | none => r.input.fill chunked.block

def refill (r : DecryptReader Key) : Except String (Option (DecryptReader Key)) :=
  match r.dec with
  | none => .ok none
  | some position =>
    let current := r.current
    if current.1 = [] then .error wrongKey
    else
      let next := current.2.fill chunked.block
      if next.1 = [] then
        match suite.get r.key r.nonce position true r.aad current.1 with
        | none => .error wrongKey
        | some plain =>
          .ok (some { r with input := next.2, dec := none, ahead := none, plain, at_ := 0 })
      else if position = chunked.cap then .error wrongKey
      else
        match suite.get r.key r.nonce position false r.aad current.1 with
        | none => .error wrongKey
        | some plain =>
          .ok (some { r with
            input := next.2, dec := some (position + 1), ahead := some next.1, plain, at_ := 0 })

/-- How much there is to go: no block is opened twice. -/
def left (r : DecryptReader Key) : Nat :=
  match r.dec with
  | none => 0
  | some _ => 1 + (r.ahead.elim 0 List.length + r.input.rest.length)

lemma current_eq (r : DecryptReader Key) :
    r.current.1.length + r.current.2.rest.length =
      r.ahead.elim 0 List.length + r.input.rest.length := by
  unfold current
  split
  · next block hahead => rw [hahead, Option.elim_some]
  · next hahead =>
    rw [(Input.fill_eq _ _).1, (Input.fill_eq _ _).2, ← List.length_append,
      List.take_append_drop, hahead, Option.elim_none, Nat.zero_add]

lemma left_refill {suite : Suite Key} {r next : DecryptReader Key}
    (h : r.refill suite = .ok (some next)) : next.left < r.left := by
  unfold refill at h
  split at h
  · cases h
  · next position hdec =>
    dsimp only at h
    have hlength := current_eq r
    have hleft : r.left = 1 + (r.current.1.length + r.current.2.rest.length) := by
      rw [left, hdec, hlength]
    split at h
    · cases h
    · next hcurrent =>
      have hpos := List.length_pos_iff.2 hcurrent
      have hfill : (r.current.2.fill chunked.block).1.length +
          (r.current.2.fill chunked.block).2.rest.length = r.current.2.rest.length := by
        rw [(Input.fill_eq _ _).1, (Input.fill_eq _ _).2, ← List.length_append,
          List.take_append_drop]
      split at h
      · split at h
        · cases h
        · cases h
          rw [hleft]
          exact Nat.lt_of_lt_of_le Nat.zero_lt_one (Nat.le_add_right 1 _)
      · split at h
        · cases h
        · split at h
          · cases h
          · cases h
            rw [hleft, left]
            dsimp only [Option.elim_some]
            omega

/-- The reader with something to hand out, unless there is nothing more. -/
def fetch (r : DecryptReader Key) : Except String (Option (DecryptReader Key)) :=
  if r.at_ = r.plain.length then
    match _h : r.refill suite with
    | .error why => .error why
    | .ok none => .ok none
    | .ok (some next) => fetch next
  else .ok (some r)
termination_by r.left
decreasing_by exact left_refill _h

def read (r : DecryptReader Key) (n : Nat) : Except String (Bytes × DecryptReader Key) :=
  match r.fetch suite with
  | .error why => .error why
  | .ok none => .ok ([], r)
  | .ok (some r) =>
    let got := (r.plain.drop r.at_).take n
    .ok (got, { r with at_ := r.at_ + got.length })

/-- Reads to the end, each time into a buffer of a byte more than `sizes` says: what came, and why
it stopped short. -/
def readToEnd (r : DecryptReader Key) : Nat → (Nat → Nat) → Option (Bytes × Option String)
  | 0, _ => none
  | fuel + 1, sizes =>
    match r.read suite (sizes 0 + 1) with
    | .error why => some ([], some why)
    | .ok ([], _) => some ([], none)
    | .ok (got, r) =>
      (readToEnd r fuel fun i => sizes (i + 1)).map fun rest => (got ++ rest.1, rest.2)

end DecryptReader

def openFile (key : String) (input : Input) (fuel : Nat) (sizes : Nat → Nat) :
    Option (Bytes × Option String) :=
  match readHeader suite input with
  | .error why => some ([], some why)
  | .ok (header, aad, input) =>
    match decryptFrom suite input key header aad with
    | .error why => some ([], some why)
    | .ok r => r.readToEnd suite fuel sizes

end

end Irori.Backup
