import Irori.Backup.Crypt

/-!
# Sealed backups

What the writer makes of any way of writing is the sealed stream of what was written, and what the
reader makes of any way of reading is what opens of the stream that is there. So a sealed file opens
to what was sealed, and a file that differs from it does not open to its end.
-/

namespace Irori.Proofs
open Irori Backup

variable {Key : Type} {suite : Suite Key}

def written (suite : Suite Key) (w : EncryptWriter Key) (rest : Bytes) : Option Bytes :=
  (chunked.sealed (fun position last => suite.put w.key w.nonce position last w.aad) w.position
    (w.buf ++ rest)).map (w.out ++ ·)

lemma sealNext_written {w : EncryptWriter Key} {rest : Bytes} (hfull : w.buf.length = chunk)
    (hrest : 0 < rest.length) (hcap : w.position ≠ chunked.cap) :
    written suite (w.sealNext suite) rest = written suite w rest := by
  have hlong : chunked.chunk < (w.buf ++ rest).length := by
    rw [List.length_append, hfull]
    exact Nat.lt_add_of_pos_right hrest
  rw [written, written, Stream.Format.sealed_next hlong hcap, Option.map_map,
    show chunked.chunk = w.buf.length from hfull.symm, List.drop_left, List.take_left]
  refine congrArg (fun f => Option.map f _) (funext fun body => ?_)
  simp [EncryptWriter.sealNext]

lemma written_full {w : EncryptWriter Key} {rest : Bytes} (hfull : w.buf.length = chunk)
    (hrest : 0 < rest.length) (hcap : w.position = chunked.cap) :
    written suite w rest = none := by
  rw [written, Stream.Format.sealed_full _ hcap, Option.map_none]
  rw [List.length_append, hfull]
  exact Nat.lt_add_of_pos_right hrest

lemma extend_written (w : EncryptWriter Key) (bytes rest : Bytes)
    (h : w.buf.length + bytes.length ≤ chunk) :
    written suite (w.extend bytes h) rest = written suite w (bytes ++ rest) := by
  rw [written, written, ← List.append_assoc]
  rfl

lemma makeRoom_cases (w : EncryptWriter Key) {rest : Bytes} (hrest : 0 < rest.length) :
    (∃ why, w.makeRoom suite = .error why ∧ written suite w rest = none) ∨
      ∃ room, w.makeRoom suite = .ok room ∧ written suite room.1 rest = written suite w rest := by
  unfold EncryptWriter.makeRoom
  split
  · next hfull =>
    split
    · next hcap => exact Or.inl ⟨_, rfl, written_full hfull hrest hcap⟩
    · next hcap => exact Or.inr ⟨_, rfl, sealNext_written hfull hrest hcap⟩
  · exact Or.inr ⟨_, rfl, rfl⟩

lemma write_written (w : EncryptWriter Key) (rest more : Bytes) :
    (∃ why, w.write suite rest = .error why ∧ written suite w (rest ++ more) = none) ∨
      ∃ after, w.write suite rest = .ok after ∧
        written suite after more = written suite w (rest ++ more) := by
  induction w, rest using EncryptWriter.write.induct suite with
  | case1 w => exact Or.inr ⟨w, by rw [EncryptWriter.write, if_pos rfl], rfl⟩
  | case2 w rest hne why hroom =>
    have hpos : 0 < (rest ++ more).length := by
      rw [List.length_append]
      exact Nat.add_pos_left (List.length_pos_iff.2 hne) _
    rcases @makeRoom_cases _ suite w _ hpos with ⟨why', -, hnone⟩ | ⟨room, hok, -⟩
    · exact Or.inl ⟨why, by rw [EncryptWriter.write, if_neg hne, hroom], hnone⟩
    · rw [hroom] at hok
      cases hok
  | case3 w rest hne room hroom take ih =>
    have hpos : 0 < (rest ++ more).length := by
      rw [List.length_append]
      exact Nat.add_pos_left (List.length_pos_iff.2 hne) _
    rcases @makeRoom_cases _ suite w _ hpos with ⟨why, herror, -⟩ | ⟨room', hok, hsame⟩
    · rw [hroom] at herror
      cases herror
    · rw [hroom] at hok
      cases hok
      rw [EncryptWriter.write, if_neg hne, hroom, ← hsame]
      have hjoin : ∀ h, written suite (room.1.extend (rest.take take) h) (rest.drop take ++ more) =
          written suite room.1 (rest ++ more) := by
        intro h
        rw [extend_written, ← List.append_assoc, List.take_append_drop]
      rw [hjoin] at ih
      exact ih

lemma writeAll_written (w : EncryptWriter Key) (pieces : List Bytes) :
    (∃ why, w.writeAll suite pieces = .error why ∧ written suite w pieces.flatten = none) ∨
      ∃ after, w.writeAll suite pieces = .ok after ∧
        written suite after [] = written suite w pieces.flatten := by
  induction pieces generalizing w with
  | nil => exact Or.inr ⟨w, rfl, rfl⟩
  | cons piece pieces ih =>
    rw [EncryptWriter.writeAll, List.flatten_cons]
    rcases @write_written _ suite w piece pieces.flatten with
      ⟨why, herror, hnone⟩ | ⟨after, hok, hsame⟩
    · exact Or.inl ⟨why, by rw [herror], hnone⟩
    · rw [hok, ← hsame]
      exact ih after

lemma finish_written (w : EncryptWriter Key) :
    written suite w [] = some (w.finish suite) := by
  rw [written, List.append_nil, Stream.Format.sealed_last w.buf_le]
  rfl

def sealedBody (suite : Suite Key) (key : Key) (noise : Noise) (aad data : Bytes) :
    Option Bytes :=
  chunked.sealed (fun position last => suite.put key noise.nonce position last aad) 0 data

def aadFor (suite : Suite Key) (noise : Noise) (meta_ : Manifest) : Bytes :=
  aadOf (suite.writeHeader (noise.header suite meta_))

lemma sealFile_cases {key : String} {meta_ : Manifest} {noise : Noise} {derived : Key}
    (hkey : deriveKey suite key (noise.header suite meta_) = .ok derived) (pieces : List Bytes) :
    (∃ why, sealFile suite key meta_ noise pieces = .error why ∧
        sealedBody suite derived noise (aadFor suite noise meta_) pieces.flatten = none) ∨
      ∃ body, sealFile suite key meta_ noise pieces = .ok (aadFor suite noise meta_ ++ body) ∧
        sealedBody suite derived noise (aadFor suite noise meta_) pieces.flatten = some body := by
  unfold sealFile encryptTo
  dsimp only
  rw [hkey]
  dsimp only
  rw [← aadFor]
  rcases @writeAll_written _ suite ⟨aadFor suite noise meta_, derived, noise.nonce, 0, [],
    aadFor suite noise meta_, Nat.zero_le _⟩ pieces with
    ⟨why, herror, hnone⟩ | ⟨after, hok, hsame⟩
  · exact Or.inl ⟨why, by rw [herror], Option.map_eq_none_iff.1 hnone⟩
  · rw [finish_written] at hsame
    obtain ⟨body, hbody, hfile⟩ := Option.map_eq_some_iff.1 hsame.symm
    exact Or.inr ⟨body, by rw [hok]; exact congrArg Except.ok hfile.symm, hbody⟩

def unopened (r : DecryptReader Key) : Bytes := r.ahead.getD [] ++ r.input.rest

/-- What reading to the end is to give: what is opened already, and what opens of the rest. -/
def outcome (suite : Suite Key) (r : DecryptReader Key) : Bytes × Bool :=
  match r.dec with
  | none => (r.plain.drop r.at_, true)
  | some position =>
    let rest := chunked.opened (fun i last => suite.get r.key r.nonce i last r.aad) position
      (unopened r)
    (r.plain.drop r.at_ ++ rest.1, rest.2)

/-- The block read ahead is a whole one, or the last, and no more is handed out than there is. -/
structure Aligned (r : DecryptReader Key) : Prop where
  ahead : ∀ block, r.ahead = some block → block ≠ [] ∧ block = (unopened r).take chunked.block
  at_le : r.at_ ≤ r.plain.length

lemma current_spec {r : DecryptReader Key} (hr : Aligned r) :
    r.current.1 = (unopened r).take chunked.block ∧
      r.current.2.rest = (unopened r).drop chunked.block := by
  unfold DecryptReader.current
  split
  · next block hahead =>
    obtain ⟨-, hblock⟩ := hr.ahead block hahead
    refine ⟨hblock, ?_⟩
    have hdrop : (unopened r).drop block.length = r.input.rest := by
      rw [unopened, hahead, Option.getD_some, List.drop_left]
    rcases le_total chunked.block (unopened r).length with hle | hle
    · rw [← hdrop, hblock, List.length_take, Nat.min_eq_left hle]
    · rw [← hdrop, hblock, List.take_of_length_le hle, List.drop_length,
        List.drop_eq_nil_of_le hle]
  · next hahead =>
    have hrest : unopened r = r.input.rest := by
      rw [unopened, hahead, Option.getD_none, List.nil_append]
    rw [hrest]
    exact Input.fill_eq _ _

def opens (suite : Suite Key) (r : DecryptReader Key) (position : ℕ) : Bytes × Bool :=
  chunked.opened (fun i last => suite.get r.key r.nonce i last r.aad) position (unopened r)

lemma refill_cases {r : DecryptReader Key} (hr : Aligned r) :
    (r.dec = none ∧ r.refill suite = .ok none) ∨
      ∃ position, r.dec = some position ∧
        ((r.refill suite = .error wrongKey ∧ opens suite r position = ([], false)) ∨
          ∃ next, r.refill suite = .ok (some next) ∧ Aligned next ∧
            outcome suite next = opens suite r position) := by
  obtain ⟨hcurrent, hrest⟩ := current_spec hr
  have hnext : (r.current.2.fill chunked.block).1 =
        ((unopened r).drop chunked.block).take chunked.block ∧
      (r.current.2.fill chunked.block).2.rest =
        ((unopened r).drop chunked.block).drop chunked.block := by
    rw [(Input.fill_eq _ _).1, (Input.fill_eq _ _).2, hrest]
    exact ⟨rfl, rfl⟩
  have hblock : chunked.block ≠ 0 := Stream.Format.block_pos.ne'
  cases hdec : r.dec with
  | none => exact Or.inl ⟨rfl, by rw [DecryptReader.refill, hdec]⟩
  | some position =>
    refine Or.inr ⟨position, rfl, ?_⟩
    rw [DecryptReader.refill, hdec, opens, Stream.Format.opened]
    dsimp only
    rw [hcurrent, hnext.1]
    by_cases hnil : unopened r = []
    · rw [if_pos (by rw [hnil, List.take_nil]), if_pos hnil]
      exact Or.inl ⟨rfl, rfl⟩
    · rw [if_neg (by simp [hnil, hblock]), if_neg hnil]
      by_cases hlast : (unopened r).length ≤ chunked.block
      · rw [if_pos (by rw [List.drop_eq_nil_of_le hlast, List.take_nil]), if_pos hlast,
          List.take_of_length_le hlast]
        cases hget : suite.get r.key r.nonce position true r.aad (unopened r) with
        | none => exact Or.inl ⟨rfl, rfl⟩
        | some plain =>
          refine Or.inr ⟨_, rfl, ⟨fun _ hahead => (by cases hahead), Nat.zero_le _⟩, ?_⟩
          rw [outcome]
          rfl
      · rw [if_neg (by simp [hblock]; omega), if_neg hlast]
        by_cases hcap : position = chunked.cap
        · rw [if_pos hcap, if_pos hcap]
          exact Or.inl ⟨rfl, rfl⟩
        · rw [if_neg hcap, if_neg hcap]
          cases hget : suite.get r.key r.nonce position false r.aad
              ((unopened r).take chunked.block) with
          | none => exact Or.inl ⟨rfl, rfl⟩
          | some plain =>
            have hleft : ∀ next : DecryptReader Key,
                next.ahead = some (((unopened r).drop chunked.block).take chunked.block) →
                next.input = (r.current.2.fill chunked.block).2 →
                unopened next = (unopened r).drop chunked.block := by
              intro next hahead hinput
              rw [unopened, hahead, hinput, Option.getD_some, hnext.2, List.take_append_drop]
            refine Or.inr ⟨_, rfl, ⟨fun block hahead => ?_, Nat.zero_le _⟩, ?_⟩
            · rw [hleft _ rfl rfl]
              cases hahead
              refine ⟨?_, rfl⟩
              simp only [ne_eq, List.take_eq_nil_iff, hblock, List.drop_eq_nil_iff, false_or]
              exact hlast
            · rw [outcome]
              dsimp only
              rw [hleft _ rfl rfl]
              rfl

lemma fetch_cases {r : DecryptReader Key} (hr : Aligned r) :
    (r.fetch suite = .error wrongKey ∧ outcome suite r = ([], false)) ∨
      (r.fetch suite = .ok none ∧ outcome suite r = ([], true)) ∨
        ∃ next, r.fetch suite = .ok (some next) ∧ Aligned next ∧
          outcome suite next = outcome suite r ∧ next.at_ < next.plain.length := by
  induction hleft : r.left using Nat.strongRecOn generalizing r with
  | ind left ih =>
    rw [DecryptReader.fetch]
    split
    · next hat =>
      have hplain : r.plain.drop r.at_ = [] := by rw [hat, List.drop_length]
      have houtcome : ∀ position, r.dec = some position →
          outcome suite r = opens suite r position := by
        intro position hdec
        rw [outcome, hdec]
        dsimp only
        rw [hplain, List.nil_append]
        rfl
      rcases @refill_cases _ suite _ hr with ⟨hdec, hrefill⟩ |
        ⟨position, hdec, ⟨hrefill, hopens⟩ | ⟨next, hrefill, hnext, hopens⟩⟩
      · refine Or.inr (Or.inl ⟨?_, ?_⟩)
        · split <;> simp_all
        · rw [outcome, hdec]
          exact Prod.ext hplain rfl
      · refine Or.inl ⟨?_, (houtcome position hdec).trans hopens⟩
        split <;> simp_all
      · have hgo := ih next.left (hleft ▸ DecryptReader.left_refill hrefill) hnext rfl
        rw [hopens, ← houtcome position hdec] at hgo
        split
        · next why herror =>
          rw [hrefill] at herror
          cases herror
        · next hnone =>
          rw [hrefill] at hnone
          cases hnone
        · next other hother =>
          rw [hrefill] at hother
          cases hother
          exact hgo
    · next hat =>
      exact Or.inr (Or.inr ⟨r, rfl, hr, rfl, lt_of_le_of_ne hr.at_le hat⟩)

lemma outcome_take (r : DecryptReader Key) (n : ℕ) :
    outcome suite r = (((r.plain.drop r.at_).take n) ++
      (outcome suite { r with at_ := r.at_ + ((r.plain.drop r.at_).take n).length }).1,
      (outcome suite { r with at_ := r.at_ + ((r.plain.drop r.at_).take n).length }).2) := by
  have hsplit : r.plain.drop r.at_ = (r.plain.drop r.at_).take n ++
      r.plain.drop (r.at_ + ((r.plain.drop r.at_).take n).length) := by
    rw [← List.drop_drop, List.length_take]
    conv_lhs => rw [← List.take_append_drop n (r.plain.drop r.at_)]
    refine congrArg _ ?_
    rcases le_total n (r.plain.drop r.at_).length with hle | hle
    · rw [Nat.min_eq_left hle]
    · rw [Nat.min_eq_right hle, List.drop_eq_nil_of_le hle, List.drop_length]
  unfold outcome
  cases hdec : r.dec with
  | none => exact Prod.ext hsplit rfl
  | some position =>
    refine Prod.ext ?_ rfl
    dsimp only
    rw [← List.append_assoc, ← hsplit]
    rfl

lemma readToEnd_eq {r : DecryptReader Key} (hr : Aligned r) {fuel : ℕ} (sizes : ℕ → ℕ)
    (hfuel : (outcome suite r).1.length < fuel) :
    r.readToEnd suite fuel sizes = some ((outcome suite r).1,
      if (outcome suite r).2 then none else some wrongKey) := by
  induction fuel generalizing r sizes with
  | zero => exact absurd hfuel (Nat.not_lt_zero _)
  | succ fuel ih =>
    rw [DecryptReader.readToEnd, DecryptReader.read]
    rcases @fetch_cases _ suite _ hr with ⟨hfetch, houtcome⟩ | ⟨hfetch, houtcome⟩ |
      ⟨next, hfetch, hnext, houtcome, hat⟩
    · rw [hfetch, houtcome]
      rfl
    · rw [hfetch, houtcome]
      rfl
    · rw [hfetch]
      dsimp only
      have htake := @outcome_take _ suite next (sizes 0 + 1)
      have hgot : 0 < ((next.plain.drop next.at_).take (sizes 0 + 1)).length := by
        rw [List.length_take, List.length_drop]
        omega
      have hle : ((next.plain.drop next.at_).take (sizes 0 + 1)).length ≤
          next.plain.length - next.at_ := by
        rw [List.length_take, List.length_drop]
        exact Nat.min_le_right _ _
      generalize (next.plain.drop next.at_).take (sizes 0 + 1) = got at htake hgot hle
      have hrest : Aligned { next with at_ := next.at_ + got.length } :=
        ⟨hnext.ahead, by dsimp only; omega⟩
      rw [← houtcome, htake] at hfuel ⊢
      rw [List.length_append] at hfuel
      have hmore := ih hrest (fun i => sizes (i + 1)) (by omega)
      split
      · next heq => cases heq
      · next heq =>
        cases heq
        cases hgot
      · next got' r' _ heq =>
        cases heq
        rw [hmore]
        rfl

lemma beBytes_ofBeBytes {bytes : Bytes} (h : bytes.length = 4) :
    beBytes (ofBeBytes bytes) = bytes := by
  obtain ⟨a, b, c, d, rfl⟩ : ∃ a b c d, bytes = [a, b, c, d] := by
    match bytes, h with
    | [a, b, c, d], _ => exact ⟨a, b, c, d, rfl⟩
  have ha := a.toNat_lt
  have hb := b.toNat_lt
  have hc := c.toNat_lt
  have hd := d.toNat_lt
  simp only [ofBeBytes, List.foldl_cons, List.foldl_nil, beBytes, List.cons.injEq, and_true]
  refine ⟨?_, ?_, ?_, ?_⟩ <;> apply UInt8.toNat_inj.1 <;> rw [UInt8.toNat_ofNat'] <;> omega

lemma ofBeBytes_beBytes {n : ℕ} (h : n < 2 ^ 32) : ofBeBytes (beBytes n) = n := by
  simp only [ofBeBytes, beBytes, List.foldl_cons, List.foldl_nil, UInt8.toNat_ofNat']
  omega

lemma readExact_cases (input : Input) (n : ℕ) (why : String) :
    (input.readExact n why = .error why ∧ input.rest.length < n) ∨
      ∃ rest, input.readExact n why = .ok (input.rest.take n, rest) ∧
        rest.rest = input.rest.drop n ∧ n ≤ input.rest.length := by
  unfold Input.readExact
  dsimp only
  rw [(Input.fill_eq input n).1]
  split
  · next hshort =>
    rw [List.length_take] at hshort
    exact Or.inl ⟨rfl, by omega⟩
  · next hlong =>
    rw [List.length_take] at hlong
    refine Or.inr ⟨(input.fill n).2, ?_, (Input.fill_eq input n).2, by omega⟩
    rw [← (Input.fill_eq input n).1]

lemma readHeader_ok {input rest : Input} {header : Header} {aad : Bytes}
    (h : readHeader suite input = .ok (header, aad, rest)) :
    ∃ json, aad = aadOf json ∧ json.length ≤ maxHeader ∧
      suite.readHeader json = some header ∧ input.rest = aad ++ rest.rest := by
  unfold readHeader at h
  rcases readExact_cases input 8 "too short to be a backup" with ⟨heq, -⟩ | ⟨a, heq, ha, -⟩
  · rw [heq] at h
    cases h
  rw [heq] at h
  dsimp only at h
  split at h
  · cases h
  next hmagic =>
  rcases readExact_cases a 4 "the header is cut short" with ⟨heq, -⟩ | ⟨b, heq, hb, hfour⟩
  · rw [heq] at h
    cases h
  rw [heq] at h
  dsimp only at h
  split at h
  · cases h
  next hlen =>
  have hbytes : (a.rest.take 4).length = 4 := by rw [List.length_take, Nat.min_eq_left hfour]
  generalize hcount : ofBeBytes (a.rest.take 4) = len at h hlen
  rcases readExact_cases b len "the header is cut short" with ⟨heq, -⟩ | ⟨c, heq, hc, hjson⟩
  · rw [heq] at h
    cases h
  rw [heq] at h
  dsimp only at h
  split at h
  · cases h
  next found hfound =>
  split at h
  · simp only [Except.ok.injEq, Prod.mk.injEq] at h
    obtain ⟨rfl, rfl, rfl⟩ := h
    have hlength : (b.rest.take len).length = len := by
      rw [List.length_take, Nat.min_eq_left hjson]
    have hbe : beBytes len = a.rest.take 4 := by rw [← hcount, beBytes_ofBeBytes hbytes]
    refine ⟨b.rest.take len, ?_, ?_, hfound, ?_⟩
    · rw [aadOf, hlength, not_not.1 hmagic]
    · rw [hlength]
      exact not_lt.1 fun hlt => hlen (Or.inr hlt)
    · rw [hbe, hc, hb, ha, List.append_assoc, List.append_assoc, List.take_append_drop,
        List.take_append_drop, List.take_append_drop]
  · cases h

lemma readHeader_aadOf {input : Input} {json body : Bytes} {header : Header}
    (hjson : json ≠ []) (hlength : json.length ≤ maxHeader)
    (hread : suite.readHeader json = some header) (hsupported : header.supported = true)
    (hinput : input.rest = aadOf json ++ body) :
    ∃ rest, readHeader suite input = .ok (header, aadOf json, rest) ∧ rest.rest = body := by
  have hsmall : json.length < 2 ^ 32 := lt_of_le_of_lt hlength (by decide)
  have hmagic : magic.length = 8 := rfl
  have hbe : (beBytes json.length).length = 4 := rfl
  have hlong : input.rest.length = 8 + (4 + (json.length + body.length)) := by
    rw [hinput, aadOf]
    simp only [List.length_append, hmagic, hbe]
    omega
  unfold readHeader
  rcases readExact_cases input 8 "too short to be a backup" with ⟨-, hlt⟩ | ⟨a, heq, ha, -⟩
  · omega
  have hstart : input.rest.take 8 = magic := by
    rw [hinput, aadOf, List.append_assoc, List.append_assoc, List.take_left' hmagic]
  have harest : a.rest = beBytes json.length ++ (json ++ body) := by
    rw [ha, hinput, aadOf, List.append_assoc, List.append_assoc, List.drop_left' hmagic]
  rw [heq]
  dsimp only
  rw [hstart, if_neg (not_not.2 rfl)]
  rcases readExact_cases a 4 "the header is cut short" with ⟨-, hlt⟩ | ⟨b, heq, hb, -⟩
  · rw [harest, List.length_append, hbe] at hlt
    omega
  rw [heq]
  dsimp only
  have hcount : ofBeBytes (a.rest.take 4) = json.length := by
    rw [harest, List.take_left' hbe, ofBeBytes_beBytes hsmall]
  have hbrest : b.rest = json ++ body := by rw [hb, harest, List.drop_left' hbe]
  rw [hcount, if_neg (by
    rintro (hzero | hlt)
    · exact hjson (List.length_eq_zero_iff.1 hzero)
    · omega)]
  rcases readExact_cases b json.length "the header is cut short" with ⟨-, hlt⟩ | ⟨c, heq, hc, -⟩
  · rw [hbrest, List.length_append] at hlt
    omega
  rw [heq]
  dsimp only
  rw [hbrest, List.take_left, hread]
  dsimp only
  rw [if_pos hsupported]
  exact ⟨c, rfl, by rw [hc, hbrest, List.drop_left]⟩

/-- What was typed spells these letters: dashes, spaces and case aside, and with the look-alikes. -/
def Spells (typed : String) (letters : List Char) : Prop :=
  List.Forall₂ (fun c letter => c.toUpper = letter ∨ (c.toUpper = 'O' ∧ letter = '0') ∨
      ((c.toUpper = 'I' ∨ c.toUpper = 'L') ∧ letter = '1'))
    (typed.toList.filter fun c => c != '-' && c != ' ') letters

/-- Two spellings of one key: the same text, or one recovery key's letters. -/
def SameKey (a b : String) : Prop :=
  a = b ∨ ∃ letters, letters.length = 25 ∧ letters.all alphabet.contains = true ∧
    Spells a letters ∧ Spells b letters

lemma readLetter_of_spelled {c letter : Char} (hletter : alphabet.contains letter = true)
    (h : c.toUpper = letter ∨ (c.toUpper = 'O' ∧ letter = '0') ∨
      ((c.toUpper = 'I' ∨ c.toUpper = 'L') ∧ letter = '1')) : readLetter c = letter := by
  unfold readLetter
  rcases h with h | ⟨h, rfl⟩ | ⟨h | h, rfl⟩
  · rw [h]
    split
    · exact absurd hletter (by decide)
    · exact absurd hletter (by decide)
    · exact absurd hletter (by decide)
    · rfl
  · rw [h]
    rfl
  · rw [h]
    rfl
  · rw [h]
    rfl

lemma squeezed_of_spells {typed : String} {letters : List Char}
    (hletters : letters.all alphabet.contains = true) (h : Spells typed letters) :
    squeezed typed = letters := by
  unfold squeezed
  unfold Spells at h
  generalize typed.toList.filter (fun c => c != '-' && c != ' ') = chars at h ⊢
  induction h with
  | nil => rfl
  | cons hc _ ih =>
    rw [List.all_cons, Bool.and_eq_true] at hletters
    rw [List.map_cons, readLetter_of_spelled hletters.1 hc, ih hletters.2]

lemma normalizeKey_sameKey {a b : String} (h : SameKey a b) : normalizeKey a = normalizeKey b := by
  rcases h with rfl | ⟨letters, hlength, hletters, ha, hb⟩
  · rfl
  · rw [normalizeKey, normalizeKey, squeezed_of_spells hletters ha,
      squeezed_of_spells hletters hb, if_pos ⟨hlength, hletters⟩, if_pos ⟨hlength, hletters⟩]

lemma deriveKey_sameKey {a b : String} (h : SameKey a b) (header : Header) :
    deriveKey suite a header = deriveKey suite b header := by
  unfold deriveKey
  rw [normalizeKey_sameKey h]

/-- The cipher is ideal for what was sealed: a block opens only under the key and the nonce, at the
position, with the last-block flag and the associated data it was sealed with. -/
structure Ideal (suite : Suite Key) (key : Key) (nonce aad data : Bytes) : Prop where
  opens : ∀ x ∈ chunked.chunks 0 data,
    suite.get key nonce x.1 x.2.1 aad (suite.put key nonce x.1 x.2.1 aad x.2.2) = some x.2.2
  only : ∀ key' nonce' position last aad' block message,
    suite.get key' nonce' position last aad' block = some message →
      key' = key ∧ nonce' = nonce ∧ aad' = aad ∧ ∃ m, (position, last, m) ∈ chunked.chunks 0 data ∧
        block = suite.put key nonce position last aad m

/-- What is relied on of how one header is written. -/
structure Legible (suite : Suite Key) (noise : Noise) (meta_ : Manifest) : Prop where
  read_write : suite.readHeader (suite.writeHeader (noise.header suite meta_)) =
    some (noise.header suite meta_)
  write_ne_nil : suite.writeHeader (noise.header suite meta_) ≠ []
  decode_nonce : suite.decode (suite.encode noise.nonce) = some noise.nonce

/-- A sealed file opens to what was sealed with it, and no other file opens to its end. -/
structure OpensExactly (suite : Suite Key) (key : String) (file data : Bytes) : Prop where
  same : ∀ typed, SameKey typed key → ∀ (short : List ℕ) (sizes : ℕ → ℕ) (fuel : ℕ),
    data.length < fuel → openFile suite typed ⟨file, short⟩ fuel sizes = some (data, none)
  other : ∀ typed, SameKey typed key → ∀ (changed : Bytes), changed ≠ file →
    ∀ (short : List ℕ) (sizes : ℕ → ℕ) (fuel : ℕ), data.length < fuel →
      ∃ got why, openFile suite typed ⟨changed, short⟩ fuel sizes = some (got, some why) ∧
        got <+: data

lemma decryptFrom_ok {input : Input} {key : String} {header : Header} {aad : Bytes}
    {r : DecryptReader Key} (h : decryptFrom suite input key header aad = .ok r) :
    ∃ derived nonce, deriveKey suite key header = .ok derived ∧
      r = ⟨input, derived, nonce, some 0, aad, none, [], 0⟩ := by
  unfold decryptFrom at h
  split at h
  · cases h
  · next derived hkey =>
    split at h
    · cases h
    · next nonce _ =>
      cases h
      exact ⟨derived, nonce, hkey, rfl⟩

lemma outcome_start (input : Input) (key : Key) (nonce aad : Bytes) :
    outcome suite ⟨input, key, nonce, some 0, aad, none, [], 0⟩ =
      chunked.opened (fun i last => suite.get key nonce i last aad) 0 input.rest := by
  unfold outcome unopened
  exact Prod.ext (List.nil_append _) rfl

lemma aligned_start (input : Input) (key : Key) (nonce aad : Bytes) :
    Aligned (⟨input, key, nonce, some 0, aad, none, [], 0⟩ : DecryptReader Key) :=
  ⟨fun _ hahead => (nomatch hahead), le_rfl⟩

lemma opened_none {get : ℕ → Bool → Bytes → Option Bytes}
    (h : ∀ i last block, get i last block = none) (body : Bytes) :
    chunked.opened get 0 body = ([], false) := by
  rw [Stream.Format.opened]
  simp only [h, ite_self]

lemma openFile_cases {key : Key} {noise : Noise} {aad data : Bytes}
    (hideal : Ideal suite key noise.nonce aad data) (typed : String) (input : Input) {fuel : ℕ}
    (sizes : ℕ → ℕ) (hfuel : data.length < fuel) :
    ∃ got why, openFile suite typed input fuel sizes = some (got, why) ∧ got <+: data ∧
      (why = none → ∃ json body, aad = aadOf json ∧ json.length ≤ maxHeader ∧
        sealedBody suite key noise aad data = some body ∧ input.rest = aad ++ body) := by
  unfold openFile
  cases hheader : readHeader suite input with
  | error why => exact ⟨[], some why, rfl, List.nil_prefix, fun h => nomatch h⟩
  | ok read =>
    obtain ⟨header, aad', rest⟩ := read
    obtain ⟨json, haad, hlength, -, hinput⟩ := readHeader_ok hheader
    dsimp only
    cases hreader : decryptFrom suite rest typed header aad' with
    | error why => exact ⟨[], some why, rfl, List.nil_prefix, fun h => nomatch h⟩
    | ok r =>
      obtain ⟨derived, nonce, -, rfl⟩ := decryptFrom_ok hreader
      dsimp only
      by_cases hsame : derived = key ∧ nonce = noise.nonce ∧ aad' = aad
      · obtain ⟨rfl, rfl, rfl⟩ := hsame
        obtain ⟨ hprefix, hend⟩ := @Stream.Format.opened_prefix _ _ chunked
          (fun i last => suite.put derived noise.nonce i last aad')
          (fun i last => suite.get derived noise.nonce i last aad') 0 data rest.rest hideal.opens
          (fun i last block message _ hget => (hideal.only _ _ i last _ block message hget).2.2.2)
        have hread := @readToEnd_eq _ suite _
          (aligned_start rest derived noise.nonce aad') fuel sizes (by
            rw [outcome_start]
            exact hprefix.length_le.trans_lt hfuel)
        rw [outcome_start] at hread
        refine ⟨_, _, hread, hprefix, fun hnone => ?_⟩
        split at hnone
        · next hok => exact ⟨json, rest.rest, haad, hlength, hend hok, hinput⟩
        · cases hnone
      · have hnone : ∀ i last block, suite.get derived nonce i last aad' block = none := by
          intro i last block
          by_contra hsome
          obtain ⟨message, hget⟩ := Option.ne_none_iff_exists'.1 hsome
          obtain ⟨hkey, hnonce, haad', -⟩ := hideal.only _ _ _ _ _ _ _ hget
          exact hsame ⟨hkey, hnonce, haad'⟩
        have houtcome : outcome suite (⟨rest, derived, nonce, some 0, aad', none, [], 0⟩ :
            DecryptReader Key) = ([], false) := by
          rw [outcome_start, opened_none hnone]
        have hread := @readToEnd_eq _ suite _ (aligned_start rest derived nonce aad')
          fuel sizes (by
            rw [houtcome]
            exact Nat.zero_lt_of_lt hfuel)
        rw [houtcome] at hread
        exact ⟨[], some wrongKey, hread, List.nil_prefix, fun h => nomatch h⟩

lemma length_aadOf (json : Bytes) : (aadOf json).length = 12 + json.length := by
  rw [aadOf, List.length_append, List.length_append]
  rfl

section Opening

variable {key : String} {meta_ : Manifest} {noise : Noise} {derived : Key} {body data : Bytes}

lemma length_le_of_opensExactly
    (hideal : Ideal suite derived noise.nonce (aadFor suite noise meta_) data)
    (h : OpensExactly suite key (aadFor suite noise meta_ ++ body) data) :
    (suite.writeHeader (noise.header suite meta_)).length ≤ maxHeader := by
  have hopen := h.same key (Or.inl rfl) [] (fun _ => 0) (data.length + 1) (Nat.lt_succ_self _)
  obtain ⟨got, why, heq, -, hend⟩ := openFile_cases hideal key
    ⟨aadFor suite noise meta_ ++ body, []⟩ (fun _ => 0) (Nat.lt_succ_self data.length)
  rw [hopen] at heq
  cases heq
  obtain ⟨json, -, haad, hlength, -⟩ := hend rfl
  have hjson := congrArg List.length haad
  rw [aadFor, length_aadOf, length_aadOf] at hjson
  omega

lemma openFile_sealed (hkey : deriveKey suite key (noise.header suite meta_) = .ok derived)
    (hlegible : Legible suite noise meta_)
    (hideal : Ideal suite derived noise.nonce (aadFor suite noise meta_) data)
    (hbody : sealedBody suite derived noise (aadFor suite noise meta_) data = some body)
    (hfits : (suite.writeHeader (noise.header suite meta_)).length ≤ maxHeader) {typed : String}
    (htyped : SameKey typed key) (short : List ℕ) (sizes : ℕ → ℕ) {fuel : ℕ}
    (hfuel : data.length < fuel) :
    openFile suite typed ⟨aadFor suite noise meta_ ++ body, short⟩ fuel sizes =
      some (data, none) := by
  obtain ⟨rest, hheader, hrest⟩ := @readHeader_aadOf _ suite
    ⟨aadFor suite noise meta_ ++ body, short⟩ _ body _ hlegible.write_ne_nil hfits
    hlegible.read_write rfl rfl
  have hreader : decryptFrom suite rest typed (noise.header suite meta_)
      (aadFor suite noise meta_) =
        .ok ⟨rest, derived, noise.nonce, some 0, aadFor suite noise meta_, none, [], 0⟩ := by
    unfold decryptFrom
    rw [deriveKey_sameKey htyped, hkey]
    dsimp only
    rw [show (noise.header suite meta_).nonce = suite.encode noise.nonce from rfl,
      hlegible.decode_nonce, Option.filter_some, noise.nonce_length]
    rfl
  have hopened := @Stream.Format.opened_sealed _ _ chunked
    (fun i last => suite.put derived noise.nonce i last (aadFor suite noise meta_))
    (fun i last => suite.get derived noise.nonce i last (aadFor suite noise meta_)) 0 _ _
    (fun i last message => suite.length_put _ _ i last _ message) (by decide) hbody hideal.opens
  have houtcome : outcome suite (⟨rest, derived, noise.nonce, some 0, aadFor suite noise meta_,
      none, [], 0⟩ : DecryptReader Key) = (data, true) := by
    rw [outcome_start, hrest, hopened]
  unfold openFile
  rw [hheader]
  dsimp only
  rw [← aadFor, hreader]
  dsimp only
  rw [readToEnd_eq (aligned_start rest derived noise.nonce _) sizes (by rwa [houtcome]), houtcome]
  rfl

end Opening

/-- A backup is sealed, unless it has more chunks than can be counted, and then opens to exactly
what was sealed or to an error if and only if its header is one that is read. -/
theorem opensExactly_iff {key : String} {meta_ : Manifest} {noise : Noise} {derived : Key}
    {pieces : List Bytes} (hkey : deriveKey suite key (noise.header suite meta_) = .ok derived)
    (hlegible : Legible suite noise meta_)
    (hideal : Ideal suite derived noise.nonce (aadFor suite noise meta_) pieces.flatten) :
    (∃ why, sealFile suite key meta_ noise pieces = .error why ∧
        2 ^ 32 * chunk < pieces.flatten.length) ∨
      ∃ file, sealFile suite key meta_ noise pieces = .ok file ∧
        (OpensExactly suite key file pieces.flatten ↔
          (suite.writeHeader (noise.header suite meta_)).length ≤ maxHeader) := by
  rcases sealFile_cases hkey pieces with ⟨why, herror, hnone⟩ | ⟨body, hok, hbody⟩
  · refine Or.inl ⟨why, herror, not_le.1 fun hle => ?_⟩
    obtain ⟨body, hbody⟩ := @Stream.Format.exists_sealed _ _ chunked
      (fun i last => suite.put derived noise.nonce i last (aadFor suite noise meta_))
      0 pieces.flatten hle (Nat.zero_le _)
    rw [sealedBody, hbody] at hnone
    cases hnone
  · refine Or.inr ⟨_, hok, length_le_of_opensExactly hideal, fun hfits => ⟨?_, ?_⟩⟩
    · intro typed htyped short sizes fuel hfuel
      exact openFile_sealed hkey hlegible hideal hbody hfits htyped short sizes hfuel
    · intro typed _ changed hne short sizes fuel hfuel
      obtain ⟨got, why, hopen, hprefix, hend⟩ := openFile_cases hideal typed ⟨changed, short⟩ sizes
        hfuel
      cases why with
      | some why => exact ⟨got, why, hopen, hprefix⟩
      | none =>
        obtain ⟨json, body', -, -, hbody', hchanged⟩ := hend rfl
        rw [hbody] at hbody'
        cases hbody'
        exact (hne hchanged).elim

def ascii (text : String) : Bytes := text.toList.map fun c => UInt8.ofNat c.toNat

def jsonHeader (header : Header) : Bytes :=
  ascii ("\x7b\"format\":" ++ toString header.format ++ ",\"cipher\":\"" ++ header.cipher ++
      "\",\"kdf\":\"" ++ header.kdf ++ "\",\"m_cost\":" ++ toString header.mCost ++
      ",\"t_cost\":" ++ toString header.tCost ++ ",\"p_cost\":" ++ toString header.pCost ++
      ",\"salt\":\"" ++ header.salt ++ "\",\"nonce\":\"" ++ header.nonce ++
      "\",\"meta\":\x7b\"format\":" ++ toString header.meta_.format ++
      ",\"irori_version\":\"" ++ header.meta_.iroriVersion ++ "\",\"created_at\":\"" ++
      header.meta_.createdAt ++ "\",\"extensions\":[") ++
    (header.meta_.extensions.flatMap fun name => ascii ("\"" ++ name ++ "\",")).dropLast ++
    ascii ("],\"encrypted\":" ++ toString header.meta_.encrypted ++ ",\"history\":" ++
      toString header.meta_.history ++ ",\"activity\":" ++ toString header.meta_.activity ++
      "\x7d\x7d")

def zeros : Noise := ⟨List.replicate 16 0, List.replicate 19 0, rfl, rfl⟩

def encodeZeros (bytes : Bytes) : String :=
  if bytes.length = 16 then "AAAAAAAAAAAAAAAAAAAAAA==" else "AAAAAAAAAAAAAAAAAAAAAAAAAA=="

def decodeZeros (text : String) : Option Bytes :=
  if text = "AAAAAAAAAAAAAAAAAAAAAA==" then some zeros.salt else some zeros.nonce

lemma decode_zeros : decodeZeros (encodeZeros zeros.nonce) = some zeros.nonce := by
  decide

def zerosHeader (meta_ : Manifest) : Header :=
  ⟨2, "xchacha20poly1305-stream", "argon2id", 19456, 2, 1, "AAAAAAAAAAAAAAAAAAAAAA==",
    "AAAAAAAAAAAAAAAAAAAAAAAAAA==", meta_⟩

/-- A cipher that has sealed three bytes under one header, and opens nothing else. -/
def sealedOnce (meta_ : Manifest) : Suite Unit where
  writeHeader := jsonHeader
  readHeader bytes := if bytes = jsonHeader (zerosHeader meta_) then some (zerosHeader meta_) else none
  encode := encodeZeros
  decode := decodeZeros
  derive _ _ _ _ _ := some ()
  put _ _ _ _ _ message := message ++ List.replicate tag 0
  get _ nonce position last aad block :=
    if nonce = zeros.nonce ∧ position = 0 ∧ last = true ∧
        aad = aadOf (jsonHeader (zerosHeader meta_)) ∧
        block = [1, 2, 3] ++ List.replicate tag 0 then some [1, 2, 3]
    else none
  length_put _ _ _ _ _ message := by rw [List.length_append, List.length_replicate]

lemma ideal_sealedOnce (meta_ : Manifest) : Ideal (sealedOnce meta_) () zeros.nonce
    (aadFor (sealedOnce meta_) zeros meta_) [1, 2, 3] := by
  have hchunks : chunked.chunks 0 ([1, 2, 3] : Bytes) = [(0, true, [1, 2, 3])] :=
    Stream.Format.chunks_last (by decide)
  constructor
  · intro x hx
    rw [hchunks, List.mem_singleton] at hx
    subst hx
    exact if_pos ⟨rfl, rfl, rfl, rfl, rfl⟩
  · intro key' nonce' position last aad' block message hget
    simp only [sealedOnce] at hget
    split at hget
    · next h =>
      obtain ⟨rfl, rfl, rfl, rfl, rfl⟩ := h
      exact ⟨rfl, rfl, rfl, [1, 2, 3], by rw [hchunks]; exact List.mem_singleton_self _, rfl⟩
    · cases hget

lemma jsonHeader_ne_nil (header : Header) : jsonHeader header ≠ [] := by
  intro hnil
  have hlength := congrArg List.length hnil
  simp only [jsonHeader, ascii, List.length_append, List.length_map, String.toList_append,
    List.length_nil] at hlength
  have hstart : 0 < ("\x7b\"format\":" : String).toList.length := by decide
  omega

lemma read_sealedOnce (meta_ : Manifest) : (sealedOnce meta_).readHeader
    (jsonHeader (zerosHeader meta_)) = some (zerosHeader meta_) := by
  simp only [sealedOnce, if_true]

lemma legible_sealedOnce (meta_ : Manifest) : Legible (sealedOnce meta_) zeros meta_ :=
  ⟨read_sealedOnce meta_, jsonHeader_ne_nil _, decode_zeros⟩

def plainHome : Manifest := ⟨2, "1.0.0", "2026-01-01T00:00:00Z", [], true, true, true⟩

theorem opensExactly_plainHome : ∃ file,
    sealFile (sealedOnce plainHome) "key" plainHome zeros [[1, 2], [3]] = .ok file ∧
      OpensExactly (sealedOnce plainHome) "key" file [1, 2, 3] := by
  rcases @opensExactly_iff _ _ "key" _ _ _ [[1, 2], [3]] rfl
    (legible_sealedOnce plainHome) (ideal_sealedOnce plainHome) with
    ⟨why, -, hlong⟩ | ⟨file, hok, hiff⟩
  · exact absurd hlong (by decide)
  · refine ⟨file, hok, hiff.2 ?_⟩
    show (jsonHeader (zerosHeader plainHome)).length ≤ maxHeader
    simp only [jsonHeader, ascii, List.length_append, List.length_map, String.toList_append]
    decide

def crowdedHome : Manifest :=
  { plainHome with
    extensions := (List.range 300).map fun i =>
      String.ofList (List.replicate 240 'a' ++ Nat.toDigits 10 i) }

lemma length_crowdedHome : maxHeader < ((sealedOnce crowdedHome).writeHeader
    (zeros.header (sealedOnce crowdedHome) crowdedHome)).length := by
  have hnames : ∀ name ∈ crowdedHome.extensions,
      240 ≤ (ascii ("\"" ++ name ++ "\",")).length := by
    intro name hname
    obtain ⟨i, -, rfl⟩ := List.mem_map.1 hname
    simp only [ascii, List.length_map, String.toList_append, List.length_append,
      String.toList_ofList, List.length_replicate]
    omega
  have hsum := List.card_nsmul_le_sum
    (crowdedHome.extensions.map fun name => (ascii ("\"" ++ name ++ "\",")).length) 240
    (by simpa using hnames)
  have hcount : crowdedHome.extensions.length = 300 := by
    rw [crowdedHome, List.length_map, List.length_range]
  rw [List.length_map, hcount, ← List.length_flatMap, smul_eq_mul] at hsum
  show 65536 < (jsonHeader (zerosHeader crowdedHome)).length
  rw [jsonHeader, List.length_append, List.length_append, List.length_dropLast]
  have hextensions : (zerosHeader crowdedHome).meta_.extensions = crowdedHome.extensions := rfl
  rw [hextensions]
  omega

theorem not_opensExactly_crowdedHome : ∃ file,
    sealFile (sealedOnce crowdedHome) "key" crowdedHome zeros [[1, 2, 3]] = .ok file ∧
      Legible (sealedOnce crowdedHome) zeros crowdedHome ∧
      Ideal (sealedOnce crowdedHome) () zeros.nonce
        (aadFor (sealedOnce crowdedHome) zeros crowdedHome) [1, 2, 3] ∧
      ¬ OpensExactly (sealedOnce crowdedHome) "key" file [1, 2, 3] := by
  have hideal := ideal_sealedOnce crowdedHome
  rcases @sealFile_cases _ (sealedOnce crowdedHome) "key" crowdedHome zeros () rfl [[1, 2, 3]] with ⟨why, -, hnone⟩ | ⟨body, hok, -⟩
  · rw [sealedBody, Stream.Format.sealed_last (by decide)] at hnone
    cases hnone
  · refine ⟨_, hok, legible_sealedOnce crowdedHome, hideal, fun hopens => ?_⟩
    exact absurd length_crowdedHome (not_lt.2 (length_le_of_opensExactly hideal hopens))

end Irori.Proofs
