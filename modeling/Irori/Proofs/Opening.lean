import Irori.TpLink.Klap

/-!
# What opens is what was sealed

Each direction of the chaining undoes the other over any number of blocks, and the padding taken off
is the one that is put on. So a message opens exactly where it is what sealing makes of the answer.
-/

namespace Irori.TpLink

variable {cipher : Cipher} {iv previous data plain : Bytes}

lemma xorBlock_length {block : Bytes} (hblock : block.length = 16) (hprevious : previous.length = 16) :
    (xorBlock block previous).length = 16 := by
  rw [xorBlock, List.length_zipWith, hblock, hprevious, Nat.min_self]

lemma xorBlock_twice {block : Bytes} (hlength : block.length = previous.length) :
    xorBlock (xorBlock block previous) previous = block := by
  unfold xorBlock
  induction block generalizing previous with
  | nil => rfl
  | cons byte block ih =>
    cases previous with
    | nil => simp at hlength
    | cons before previous =>
      rw [List.zipWith_cons_cons, List.zipWith_cons_cons, ih (by simpa using hlength),
        UInt8.xor_assoc, UInt8.xor_self, UInt8.xor_zero]

lemma take_block {n : Nat} (hdata : data.length = 16 * (n + 1)) : (data.take 16).length = 16 := by
  rw [List.length_take]
  omega

lemma drop_block {n : Nat} (hdata : data.length = 16 * (n + 1)) :
    (data.drop 16).length = 16 * n := by
  rw [List.length_drop]
  omega

lemma encryptChunks_length (n : Nat) : ∀ {previous data : Bytes}, previous.length = 16 →
    data.length = 16 * n → (encryptChunks cipher n previous data).length = 16 * n := by
  induction n with
  | zero => exact fun _ hdata => hdata
  | succ n ih =>
    intro previous data hprevious hdata
    have hblock := cipher.encrypt_length _ (xorBlock_length (take_block hdata) hprevious)
    rw [encryptChunks, List.length_append, hblock, ih hblock (drop_block hdata)]
    omega

lemma decryptChunks_length (n : Nat) : ∀ {previous data : Bytes}, previous.length = 16 →
    data.length = 16 * n → (decryptChunks cipher n previous data).length = 16 * n := by
  induction n with
  | zero => exact fun _ hdata => hdata
  | succ n ih =>
    intro previous data hprevious hdata
    have hthis := take_block hdata
    rw [decryptChunks, List.length_append,
      xorBlock_length (cipher.decrypt_length _ hthis) hprevious, ih hthis (drop_block hdata)]
    omega

lemma decrypt_encryptChunks (n : Nat) : ∀ {previous data : Bytes}, previous.length = 16 →
    data.length = 16 * n →
    decryptChunks cipher n previous (encryptChunks cipher n previous data) = data := by
  induction n with
  | zero => exact fun _ _ => rfl
  | succ n ih =>
    intro previous data hprevious hdata
    have htake := take_block hdata
    have hxor := xorBlock_length htake hprevious
    have hblock := cipher.encrypt_length _ hxor
    rw [encryptChunks, decryptChunks, List.take_left' hblock, List.drop_left' hblock,
      cipher.decrypt_encrypt _ hxor, xorBlock_twice (htake.trans hprevious.symm),
      ih hblock (drop_block hdata), List.take_append_drop]

lemma encrypt_decryptChunks (n : Nat) : ∀ {previous data : Bytes}, previous.length = 16 →
    data.length = 16 * n →
    encryptChunks cipher n previous (decryptChunks cipher n previous data) = data := by
  induction n with
  | zero => exact fun _ _ => rfl
  | succ n ih =>
    intro previous data hprevious hdata
    have htake := take_block hdata
    have hplain := cipher.decrypt_length _ htake
    have hblock := xorBlock_length hplain hprevious
    rw [decryptChunks, encryptChunks, List.take_left' hblock, List.drop_left' hblock,
      xorBlock_twice (hplain.trans hprevious.symm), cipher.encrypt_decrypt _ htake,
      ih htake (drop_block hdata), List.take_append_drop]

def padded (plain : Bytes) : Bytes :=
  plain ++ List.replicate (16 - plain.length % 16) (UInt8.ofNat (16 - plain.length % 16))

lemma padded_length (plain : Bytes) : (padded plain).length = 16 * (plain.length / 16 + 1) := by
  rw [padded, List.length_append, List.length_replicate]
  omega

lemma cbcEncrypt_eq (plain : Bytes) :
    cbcEncrypt cipher iv plain = encryptChunks cipher (plain.length / 16 + 1) iv (padded plain) := by
  have hcount : (padded plain).length / 16 = plain.length / 16 + 1 := by
    rw [padded_length]
    omega
  rw [← hcount]
  rfl

lemma cbcEncrypt_length (hiv : iv.length = 16) (plain : Bytes) :
    (cbcEncrypt cipher iv plain).length = 16 * (plain.length / 16 + 1) := by
  rw [cbcEncrypt_eq, encryptChunks_length _ hiv (padded_length plain)]

/-- What is left of a padded text once its padding is checked and taken off. -/
def unpadded (data : Bytes) : Option Bytes :=
  match data.getLast? with
  | none => none
  | some last =>
    let pad := last.toNat
    if pad = 0 ∨ 16 < pad ∨ data.length < pad then none
    else if (data.drop (data.length - pad)).all fun byte => byte.toNat = pad then
      some (data.take (data.length - pad))
    else none

lemma unpadded_padded (plain : Bytes) : unpadded (padded plain) = some plain := by
  have hpad : (UInt8.ofNat (16 - plain.length % 16)).toNat = 16 - plain.length % 16 := by
    rw [UInt8.toNat_ofNat']
    omega
  have hlast : (padded plain).getLast? = some (UInt8.ofNat (16 - plain.length % 16)) := by
    rw [padded, List.getLast?_append, List.getLast?_replicate, if_neg (by omega)]
    rfl
  have hlength : (padded plain).length - (16 - plain.length % 16) = plain.length := by
    rw [padded, List.length_append, List.length_replicate]
    omega
  unfold unpadded
  rw [hlast]
  dsimp only
  rw [hpad, hlength, if_neg (by have := padded_length plain; omega), padded,
    List.drop_left' rfl, List.take_left' rfl, if_pos]
  rw [List.all_eq_true]
  intro byte hbyte
  rw [List.eq_of_mem_replicate hbyte, hpad]
  exact decide_eq_true rfl

lemma padded_of_unpadded {n : Nat} (hlength : data.length = 16 * n) (h : unpadded data = some plain) :
    data = padded plain := by
  unfold unpadded at h
  split at h
  · simp at h
  · next last _ =>
    dsimp only at h
    split at h
    · simp at h
    · next hbounds =>
      simp only [not_or, not_lt] at hbounds
      split at h
      · next hall =>
        rw [Option.some.injEq] at h
        have hplain : plain.length = data.length - last.toNat := by
          rw [← h, List.length_take]
          omega
        have hpad : 16 - plain.length % 16 = last.toNat := by omega
        have hrest : data.drop (data.length - last.toNat) = List.replicate last.toNat last := by
          rw [List.eq_replicate_iff, List.length_drop]
          refine ⟨by omega, fun byte hbyte => UInt8.toNat_inj.mp ?_⟩
          exact of_decide_eq_true (List.all_eq_true.mp hall byte hbyte)
        rw [padded, hpad, UInt8.ofNat_toNat, ← hrest, ← h, List.take_append_drop]
      · simp at h

lemma cbcDecrypt_iff (hiv : iv.length = 16) {n : Nat} (hdata : data.length = 16 * n) :
    cbcDecrypt cipher iv data = some plain ↔ data = cbcEncrypt cipher iv plain := by
  have hcount : data.length / 16 = n := by omega
  have hdecrypt : cbcDecrypt cipher iv data = unpadded (decryptChunks cipher n iv data) := by
    rw [← hcount]
    rfl
  rw [hdecrypt, cbcEncrypt_eq]
  constructor
  · intro h
    have hpadded := padded_of_unpadded (decryptChunks_length n hiv hdata) h
    have hn : n = plain.length / 16 + 1 := by
      have hlength := congrArg List.length hpadded
      rw [decryptChunks_length n hiv hdata, padded_length] at hlength
      omega
    rw [← hpadded, ← hn, encrypt_decryptChunks n hiv hdata]
  · intro h
    have hn : n = plain.length / 16 + 1 := by
      rw [h, encryptChunks_length _ hiv (padded_length plain)] at hdata
      omega
    rw [h, hn, decrypt_encryptChunks _ hiv (padded_length plain), unpadded_padded]

namespace Keys

variable {crypto : Crypto} {keys : Keys} {seq seq' : Int32} {message : Bytes}

lemma ivFor_length (keys : Keys) (seq : Int32) : (keys.ivFor seq).length = 16 := by
  rw [ivFor, List.length_append, keys.iv_length]
  rfl

lemma sign_length (ciphertext : Bytes) : (keys.sign crypto seq ciphertext).length = 32 :=
  crypto.sha256_length _

theorem open_iff :
    keys.open_ crypto seq message = .ok plain ↔ message = keys.sealAt crypto seq plain := by
  have hsealed : ∀ ciphertext, (keys.sign crypto seq ciphertext ++ ciphertext).length =
      32 + ciphertext.length := fun ciphertext => by rw [List.length_append, sign_length]
  unfold open_ sealAt
  dsimp only
  split
  · next hshort =>
    refine iff_of_false (by simp) ?_
    rintro rfl
    rw [hsealed, cbcEncrypt_length (keys.ivFor_length seq)] at hshort
    omega
  · next hlong =>
    obtain ⟨n, hn⟩ : ∃ n, (message.drop 32).length = 16 * n :=
      ⟨(message.length - 32) / 16, by rw [List.length_drop]; omega⟩
    have hdecrypt : cbcDecrypt keys.cipher (keys.ivFor seq) (message.drop 32) = some plain ↔
        message.drop 32 = cbcEncrypt keys.cipher (keys.ivFor seq) plain :=
      cbcDecrypt_iff (keys.ivFor_length seq) hn
    rw [List.splitAt_eq]
    dsimp only
    split
    · next hother =>
      refine iff_of_false (by simp) ?_
      rintro rfl
      rw [List.take_left' (sign_length _), List.drop_left' (sign_length _)] at hother
      exact hother rfl
    · next hsigned =>
      rw [not_not] at hsigned
      have hmessage : message = keys.sealAt crypto seq plain ↔
          message.drop 32 = cbcEncrypt keys.cipher (keys.ivFor seq) plain := by
        constructor
        · rintro rfl
          exact List.drop_left' (sign_length _)
        · intro hciphertext
          rw [sealAt, ← hciphertext, ← hsigned, List.take_append_drop]
      refine Iff.trans ?_ hmessage.symm
      rw [← hdecrypt]
      split <;> simp_all

lemma toBeBytes_injective : Function.Injective toBeBytes := by
  intro a b h
  simp only [toBeBytes, List.cons.injEq, and_true, ← UInt8.toNat_inj, UInt8.toNat_ofNat'] at h
  have ha := a.toUInt32.toNat_lt
  have hb := b.toUInt32.toNat_lt
  have hsame : a.toUInt32.toNat = b.toUInt32.toNat := by omega
  rcases a with ⟨a⟩
  rcases b with ⟨b⟩
  exact congrArg Int32.ofUInt32 (UInt32.toNat_inj.mp hsame)

lemma signed_injective {ciphertext ciphertext' : Bytes}
    (h : keys.signed seq ciphertext = keys.signed seq' ciphertext') :
    seq = seq' ∧ ciphertext = ciphertext' := by
  rw [signed, signed, List.append_assoc, List.append_assoc, List.append_cancel_left_eq] at h
  obtain ⟨hseq, hciphertext⟩ := List.append_inj h rfl
  exact ⟨toBeBytes_injective hseq, hciphertext⟩

lemma signature_of_open (h : keys.open_ crypto seq message = .ok plain) :
    message.take 32 = keys.sign crypto seq (message.drop 32) := by
  rw [open_iff.mp h, sealAt, List.take_left' (sign_length _), List.drop_left' (sign_length _)]

lemma refused_of_signature {hashed : Set Bytes} (hhash : Set.InjOn crypto.sha256 hashed)
    {ciphertext : Bytes} (hmine : keys.signed seq ciphertext ∈ hashed)
    (hits : keys.signed seq' (message.drop 32) ∈ hashed)
    (hsignature : message.take 32 = keys.sign crypto seq ciphertext)
    (hother : seq ≠ seq' ∨ ciphertext ≠ message.drop 32) :
    keys.open_ crypto seq' message ≠ .ok plain := by
  intro h
  have hsame := hhash hmine hits (hsignature.symm.trans (signature_of_open h))
  obtain ⟨hseq, hciphertext⟩ := signed_injective hsame
  exact hother.elim (· hseq) (· hciphertext)

lemma converse_reads (device : Keys) (exchanges : List (Bytes × Bytes)) : ∀ client : Keys,
    client.cipher = device.cipher → client.iv = device.iv → client.signing = device.signing →
    converse crypto device client exchanges =
      exchanges.map fun exchange => (.ok exchange.1, .ok exchange.2) := by
  have hsame : ∀ {a b : Keys}, a.cipher = b.cipher → a.iv = b.iv → a.signing = b.signing →
      a.sealAt crypto = b.sealAt crypto := by
    rintro ⟨⟩ ⟨⟩ rfl rfl rfl
    rfl
  induction exchanges with
  | nil => exact fun _ _ _ _ => rfl
  | cons exchange exchanges ih =>
    intro client hcipher hiv hsigning
    have hseals := hsame hcipher hiv hsigning
    rw [converse, List.map_cons]
    refine congrArg₂ List.cons (Prod.ext (open_iff.mpr ?_) (open_iff.mpr ?_))
      (ih _ hcipher hiv hsigning)
    · exact congrFun (congrFun hseals _) _
    · exact congrFun (congrFun hseals.symm _) _

end Keys

end Irori.TpLink
