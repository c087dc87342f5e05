import Mathlib.Algebra.Group.Nat.Defs
import Mathlib.Data.Set.Function
import Mathlib.Tactic.Common

/-!
# KLAP: what a TP-Link device and Irori say to each other

The keys both ends derive after the handshake, and messages sealed and opened with them. The block
cipher and the hash are given.
-/

namespace Irori.TpLink

abbrev Bytes := List UInt8

/-- AES-128 with a key: decrypting a block undoes encrypting it, and the other way round. -/
structure Cipher where
  encrypt : Bytes → Bytes
  decrypt : Bytes → Bytes
  encrypt_length : ∀ block, block.length = 16 → (encrypt block).length = 16
  decrypt_length : ∀ block, block.length = 16 → (decrypt block).length = 16
  decrypt_encrypt : ∀ block, block.length = 16 → decrypt (encrypt block) = block
  encrypt_decrypt : ∀ block, block.length = 16 → encrypt (decrypt block) = block

structure Crypto where
  aes128 : Bytes → Cipher
  sha256 : Bytes → Bytes
  sha256_length : ∀ bytes, (sha256 bytes).length = 32

inductive KlapError
  | device (message : String)

def xorBlock (block previous : Bytes) : Bytes := List.zipWith (· ^^^ ·) block previous

def encryptChunks (cipher : Cipher) : Nat → Bytes → Bytes → Bytes
  | 0, _, data => data
  | n + 1, previous, data =>
    let block := cipher.encrypt (xorBlock (data.take 16) previous)
    block ++ encryptChunks cipher n block (data.drop 16)

def decryptChunks (cipher : Cipher) : Nat → Bytes → Bytes → Bytes
  | 0, _, data => data
  | n + 1, previous, data =>
    let this := data.take 16
    xorBlock (cipher.decrypt this) previous ++ decryptChunks cipher n this (data.drop 16)

def cbcEncrypt (cipher : Cipher) (iv plain : Bytes) : Bytes :=
  let pad := 16 - plain.length % 16
  let data := plain ++ List.replicate pad (UInt8.ofNat pad)
  encryptChunks cipher (data.length / 16) iv data

def cbcDecrypt (cipher : Cipher) (iv ciphertext : Bytes) : Option Bytes :=
  let data := decryptChunks cipher (ciphertext.length / 16) iv ciphertext
  match data.getLast? with
  | none => none
  | some last =>
    let pad := last.toNat
    if pad = 0 ∨ 16 < pad ∨ data.length < pad then none
    else if (data.drop (data.length - pad)).all fun byte => byte.toNat = pad then
      some (data.take (data.length - pad))
    else none

structure Keys where
  cipher : Cipher
  iv : Bytes
  signing : Bytes
  seq : Int32
  iv_length : iv.length = 12

def toBeBytes (seq : Int32) : Bytes :=
  let n := seq.toUInt32.toNat
  [UInt8.ofNat (n / 2 ^ 24), UInt8.ofNat (n / 2 ^ 16), UInt8.ofNat (n / 2 ^ 8), UInt8.ofNat n]

def fromBeBytes (bytes : Bytes) : Int32 :=
  (UInt32.ofNat (bytes.foldl (fun n byte => n * 256 + byte.toNat) 0)).toInt32

namespace Keys

section

variable (crypto : Crypto)

def derive (localSeed remoteSeed auth : Bytes) : Keys :=
  let key := crypto.sha256 ("lsk".toUTF8.toList ++ localSeed ++ remoteSeed ++ auth)
  let ivs := crypto.sha256 ("iv".toUTF8.toList ++ localSeed ++ remoteSeed ++ auth)
  let signing := crypto.sha256 ("ldk".toUTF8.toList ++ localSeed ++ remoteSeed ++ auth)
  { cipher := crypto.aes128 (key.take 16), iv := ivs.take 12, signing := signing.take 28,
    seq := fromBeBytes (ivs.drop 28),
    iv_length := by rw [List.length_take, crypto.sha256_length]; rfl }

variable (keys : Keys)

def ivFor (seq : Int32) : Bytes := keys.iv ++ toBeBytes seq

def signed (seq : Int32) (ciphertext : Bytes) : Bytes := keys.signing ++ toBeBytes seq ++ ciphertext

def sign (seq : Int32) (ciphertext : Bytes) : Bytes := crypto.sha256 (keys.signed seq ciphertext)

/-- The signed ciphertext under a given sequence number: how a device answers a request. -/
def sealAt (seq : Int32) (plain : Bytes) : Bytes :=
  let ciphertext := cbcEncrypt keys.cipher (keys.ivFor seq) plain
  keys.sign crypto seq ciphertext ++ ciphertext

/-- The next sequence number, and the signed ciphertext to send with it. -/
def seal_ (plain : Bytes) : (Int32 × Bytes) × Keys :=
  let keys := { keys with seq := keys.seq + 1 }
  ((keys.seq, keys.sealAt crypto keys.seq plain), keys)

/-- The plaintext of a signed message under `seq`, either end's. -/
def open_ (seq : Int32) (message : Bytes) : Except KlapError Bytes :=
  if message.length < 32 + 16 ∨ (message.length - 32) % 16 ≠ 0 then
    .error (.device "the device's answer isn't KLAP")
  else
    let (signature, ciphertext) := message.splitAt 32
    if signature ≠ keys.sign crypto seq ciphertext then
      .error (.device "the device's answer isn't signed with this session")
    else match cbcDecrypt keys.cipher (keys.ivFor seq) ciphertext with
      | some plain => .ok plain
      | none => .error (.device "the device's answer doesn't decrypt")

/-- What each end reads of a session's requests and their answers, one after the other. -/
def converse (device : Keys) :
    Keys → List (Bytes × Bytes) → List (Except KlapError Bytes × Except KlapError Bytes)
  | _, [] => []
  | client, (request, answer) :: rest =>
    let sent : (Int32 × Bytes) × Keys := client.seal_ crypto request
    (device.open_ crypto sent.1.1 sent.1.2,
      sent.2.open_ crypto sent.1.1 (device.sealAt crypto sent.1.1 answer)) ::
      converse device sent.2 rest

end

end Keys

end Irori.TpLink
