import Irori.Server.Tokens
import Irori.Lib.Index

/-!
# Revoked stays revoked

The table and the copy of it in memory, and what each operation leaves of both. What is found was
issued, and was not revoked since, as long as no revocation is asked of a copy that lacks a row it
covers.
-/

namespace Irori.Proofs
open Irori Server

variable {text : TokenText} {store : TokenStore} {hash : String} {token : AccessToken}

def Issues (text : TokenText) (store : TokenStore) (step : TokenStep) (hash : String)
    (token : AccessToken) : Prop :=
  ∃ secret, (store.after text step).2 = .issued (.ok ⟨secret, token⟩) ∧
    text.fingerprint secret = hash

def Revokes (text : TokenText) (store : TokenStore) (step : TokenStep) : Prop :=
  (store.after text step).2 = .revoked (.ok ())

def Covers (token : AccessToken) : TokenStep → Prop
  | .revoke id _ => token.id = id
  | .revokeUser user _ => token.user = user
  | .revokeAll _ => True
  | _ => False

/-- A token was issued, and no revocation that covers it succeeded since. -/
def Standing (text : TokenText) (steps : List TokenStep) (hash : String) (token : AccessToken) :
    Prop :=
  ∃ before step after, steps = before ++ step :: after ∧
    Issues text (.afterAll text before) step hash token ∧
    ∀ between s rest, after = between ++ s :: rest → Covers token s →
      ¬ Revokes text (.afterAll text (before ++ step :: between)) s

def Withdraws : TokenStep → Prop
  | .revoke .. | .revokeUser .. | .revokeAll .. => True
  | _ => False

structure Guarded (text : TokenText) (steps : List TokenStep) : Prop where
  standing : ∀ secret token, (TokenStore.afterAll text steps).find text secret = some token →
    Standing text steps (text.fingerprint secret) token
  /-- Two secrets that find tokens of one id find one token. -/
  distinct : ∀ secret other token token', (TokenStore.afterAll text steps).find text secret =
    some token → (TokenStore.afterAll text steps).find text other = some token' →
    token.id = token'.id → text.fingerprint secret = text.fingerprint other
  bounded : (TokenStore.afterAll text steps).rows.size ≤ maxTokens

def Stored (text : TokenText) (store : TokenStore) (hash : String) (token : AccessToken) : Prop :=
  (store.rows[hash]?).bind (TokenStore.readRow text) = some token

/-- Every row a revocation covers is in memory, and a token is issued only where there is room for
its row or none is seen. -/
def Informed (text : TokenText) (store : TokenStore) : TokenStep → Prop
  | .issue .. => store.tokens.size < maxTokens → store.rows.size < maxTokens
  | step => ∀ hash token, Stored text store hash token → Covers token step →
      store.tokens.contains hash

lemma parse_text {what : String} (slug : Slug what) :
    Slug.parse what slug.text = .ok slug := by
  unfold Slug.parse
  split
  · rfl
  · next e h =>
    rw [slug.wellFormed] at h
    cases h

lemma text_of_parse {what value : String} {slug : Slug what}
    (h : (Slug.parse what value).toOption = some slug) : slug.text = value := by
  unfold Slug.parse at h
  split at h
  · cases h
    rfl
  · cases h

lemma read_writeRow (h : token.created ≤ maxSeconds) :
    TokenStore.readRow text (TokenStore.writeRow text token) = some token := by
  have hextension : TokenStore.readExtension (token.extension.map Slug.text) =
      some token.extension := by
    cases token.extension with
    | none => rfl
    | some id => simp [TokenStore.readExtension, parse_text, Except.toOption]
  have hcreated : TokenStore.readCreated (min (token.created : ℤ) (maxSeconds : ℤ)) =
      some token.created := by
    rw [min_eq_left (by exact_mod_cast h)]
    simp [TokenStore.readCreated]
  simp [TokenStore.readRow, TokenStore.writeRow, text.read_write, parse_text, Except.toOption,
    hextension, hcreated]

lemma id_of_readRow {row : TokenRow} (h : TokenStore.readRow text row = some token) :
    row.id = token.id.text := by
  simp only [TokenStore.readRow, Option.bind_eq_bind, Option.bind_eq_some_iff,
    Option.some.injEq] at h
  obtain ⟨scopes, -, extension, -, id, hid, user, -, created, -, rfl⟩ := h
  exact (text_of_parse hid).symm

lemma any_rows {p : TokenRow → Bool} :
    (store.rows.toList.any fun entry => p entry.2) = false ↔
      ∀ (hash : String) row, store.rows[hash]? = some row → p row = false := by
  rw [List.any_eq_false]
  constructor
  · intro h hash row hrow
    simpa using h (hash, row) (Std.ExtTreeMap.mem_toList_iff_getElem?_eq_some.mpr hrow)
  · intro h entry hentry
    simpa using h entry.1 entry.2 (Std.ExtTreeMap.mem_toList_iff_getElem?_eq_some.mp hentry)

lemma insertRow_ok {row : TokenRow} {fails : Option String} {after : TokenStore}
    (h : store.insertRow hash row fails = .ok after) :
    store.rows[hash]? = none ∧
      (∀ (other : String) r, store.rows[other]? = some r → r.id ≠ row.id) ∧
      after = { store with rows := store.rows.insert hash row } := by
  unfold TokenStore.insertRow at h
  split at h
  · cases h
  · split at h
    · cases h
    · next hkey =>
      split at h
      · cases h
      · next hid =>
        cases h
        refine ⟨by simpa using hkey, fun other r hr heq => ?_, rfl⟩
        rw [Bool.not_eq_true, any_rows (p := fun r => r.id == row.id)] at hid
        simpa [heq] using hid other r hr

lemma issue_cases (text : TokenText) (store : TokenStore) (id : TokenId) (name : String)
    (user : UserId) (scopes : List ApiScope) (extension : Option ExtensionId) (secret : String)
    (now : Fin (maxSeconds + 1)) (fails : Option String) :
    (∃ e, store.issue text id name user scopes extension secret now fails = (store, .error e)) ∨
      (∃ token : AccessToken, token.id = id ∧ token.created ≤ maxSeconds ∧
        store.tokens.size < maxTokens ∧ store.rows[text.fingerprint secret]? = none ∧
        (∀ (other : String) r, store.rows[other]? = some r → r.id ≠ token.id.text) ∧
        store.issue text id name user scopes extension secret now fails =
          (⟨store.rows.insert (text.fingerprint secret) (TokenStore.writeRow text token),
            store.tokens.insert (text.fingerprint secret) token⟩, .ok ⟨secret, token⟩)) := by
  unfold TokenStore.issue
  split
  · exact Or.inl ⟨_, rfl⟩
  · next hroom =>
    split
    · exact Or.inl ⟨_, rfl⟩
    · dsimp only
      split
      · split
        · exact Or.inl ⟨_, rfl⟩
        · exact Or.inl ⟨_, rfl⟩
      · next stored hstored =>
        obtain ⟨hkey, hid, rfl⟩ := insertRow_ok hstored
        exact Or.inr ⟨_, rfl, Nat.lt_succ_iff.1 now.isLt, not_le.1 hroom, hkey, hid, rfl⟩

lemma filter_all {β : Type} (m : Map String β) : (m.filter fun _ _ => true) = m := by
  apply Std.ExtTreeMap.ext_getElem?
  intro hash
  rw [Std.ExtTreeMap.getElem?_filter']
  cases m[hash]? <;> rfl

lemma get_filter_key {β : Type} (m : Map String β) (gone : String → Bool) (hash : String) :
    (m.filter fun hash _ => !gone hash)[hash]? = if gone hash then none else m[hash]? := by
  rw [Std.ExtTreeMap.getElem?_filter']
  cases gone hash <;> cases m[hash]? <;> rfl

lemma dropTokens_cases (store : TokenStore) (keep : String → AccessToken → Bool)
    (fails : Option String) :
    (∃ message, store.dropTokens keep fails = (store, .error message)) ∨
      ∃ gone : String → Bool,
        (∀ (hash : String) token, store.tokens[hash]? = some token →
          gone hash = !keep hash token) ∧
        store.dropTokens keep fails =
          (⟨store.rows.filter fun hash _ => !gone hash,
            store.tokens.filter fun hash _ => !gone hash⟩, .ok ()) := by
  have hgone : ∀ (hash : String) token, store.tokens[hash]? = some token →
      ((store.tokens.toList.filter fun entry => !keep entry.1 entry.2).map Prod.fst).contains
        hash = !keep hash token := by
    intro hash token htoken
    rw [Bool.eq_iff_iff, List.contains_iff_mem]
    simp only [List.mem_map, List.mem_filter]
    constructor
    · rintro ⟨⟨other, t⟩, ⟨ht, hkeep⟩, rfl⟩
      have hother := Std.ExtTreeMap.mem_toList_iff_getElem?_eq_some.mp ht
      rw [htoken] at hother
      cases hother
      exact hkeep
    · exact fun hkeep => ⟨(hash, token),
        ⟨Std.ExtTreeMap.mem_toList_iff_getElem?_eq_some.mpr htoken, hkeep⟩, rfl⟩
  unfold TokenStore.dropTokens
  dsimp only
  split
  · next hempty =>
    refine Or.inr ⟨fun _ => false, fun hash token htoken => ?_, ?_⟩
    · rw [← hgone hash token htoken, List.isEmpty_iff.1 hempty]
      rfl
    · simp only [Bool.not_false, filter_all]
  · split
    · exact Or.inl ⟨_, rfl⟩
    · exact Or.inr ⟨_, hgone, rfl⟩

def DistinctIds (store : TokenStore) : Prop :=
  ∀ (hash other : String) token token', store.tokens[hash]? = some token →
    store.tokens[other]? = some token' → token.id = token'.id → hash = other

lemma revoking_cases (text : TokenText) (hids : DistinctIds store) {step : TokenStep}
    (hstep : Withdraws step) :
    (∃ message, store.after text step = (store, .revoked (.error message))) ∨
      ∃ gone : String → Bool,
        (∀ (hash : String) token, store.tokens[hash]? = some token →
          (gone hash = true ↔ Covers token step)) ∧
        store.after text step =
          (⟨store.rows.filter fun hash _ => !gone hash,
            store.tokens.filter fun hash _ => !gone hash⟩, .revoked (.ok ())) := by
  cases step with
  | revoke id fails =>
    cases hfind : store.tokens.toList.find? fun entry => entry.2.id = id with
    | none =>
      refine Or.inr ⟨fun _ => false, fun hash token htoken => ?_, ?_⟩
      · have hother := List.find?_eq_none.1 hfind (hash, token)
          (Std.ExtTreeMap.mem_toList_iff_getElem?_eq_some.mpr htoken)
        simpa [Covers] using hother
      · simp only [TokenStore.after, TokenStore.revoke, hfind, Except.map, Bool.not_false,
          filter_all]
    | some entry =>
      obtain ⟨key, known⟩ := entry
      have hknown : store.tokens[key]? = some known :=
        Std.ExtTreeMap.mem_toList_iff_getElem?_eq_some.mp (List.mem_of_find?_eq_some hfind)
      have hid : known.id = id := by simpa using List.find?_some hfind
      rcases dropTokens_cases store (fun other _ => other != key) fails with
        ⟨message, heq⟩ | ⟨gone, hgone, heq⟩
      · refine Or.inl ⟨message, ?_⟩
        simp only [TokenStore.after, TokenStore.revoke, hfind, heq, Except.map]
      · refine Or.inr ⟨gone, fun hash token htoken => ?_, ?_⟩
        · have hkey : gone hash = true ↔ hash = key := by simp [hgone hash token htoken]
          rw [hkey]
          constructor
          · rintro rfl
            rw [hknown] at htoken
            cases htoken
            exact hid
          · exact fun hcovers => hids hash key token known htoken hknown
              ((show token.id = id from hcovers).trans hid.symm)
        · simp only [TokenStore.after, TokenStore.revoke, hfind, heq, Except.map]
  | revokeUser user fails =>
    rcases dropTokens_cases store (fun _ token => token.user ≠ user) fails with
      ⟨message, heq⟩ | ⟨gone, hgone, heq⟩
    · refine Or.inl ⟨message, ?_⟩
      simp only [TokenStore.after, TokenStore.revokeUser, heq]
    · refine Or.inr ⟨gone, fun hash token htoken => ?_, ?_⟩
      · simp [hgone hash token htoken, Covers]
      · simp only [TokenStore.after, TokenStore.revokeUser, heq]
  | revokeAll fails =>
    rcases dropTokens_cases store (fun _ _ => false) fails with
      ⟨message, heq⟩ | ⟨gone, hgone, heq⟩
    · refine Or.inl ⟨message, ?_⟩
      simp only [TokenStore.after, TokenStore.revokeAll, heq]
    · refine Or.inr ⟨gone, fun hash token htoken => ?_, ?_⟩
      · simp [hgone hash token htoken, Covers]
      · simp only [TokenStore.after, TokenStore.revokeAll, heq]
  | _ => exact hstep.elim

/-- The copy in memory is of rows of the table, and each row that can be read stands. -/
structure InStep (text : TokenText) (steps : List TokenStep) (store : TokenStore) : Prop where
  copied : ∀ (hash : String) token, store.tokens[hash]? = some token →
    Stored text store hash token
  standing : ∀ hash token, Stored text store hash token → Standing text steps hash token
  ids : ∀ (hash other : String) row row', store.rows[hash]? = some row →
    store.rows[other]? = some row' → row.id = row'.id → hash = other
  bounded : store.rows.size ≤ maxTokens

section Runs

variable {steps : List TokenStep} {step : TokenStep}

lemma InStep.distinctIds (h : InStep text steps store) : DistinctIds store := by
  intro hash other token token' htoken htoken' hid
  obtain ⟨row, hrow, hread⟩ := Option.bind_eq_some_iff.1 (h.copied hash token htoken)
  obtain ⟨row', hrow', hread'⟩ := Option.bind_eq_some_iff.1 (h.copied other token' htoken')
  exact h.ids hash other row row' hrow hrow'
    (by rw [id_of_readRow hread, id_of_readRow hread', hid])

lemma afterAll_snoc (steps : List TokenStep) (step : TokenStep) :
    TokenStore.afterAll text (steps ++ [step]) =
      ((TokenStore.afterAll text steps).after text step).1 := by
  rw [TokenStore.afterAll, List.foldl_append]
  rfl

lemma Standing.snoc (h : Standing text steps hash token)
    (hstep : Covers token step → ¬ Revokes text (.afterAll text steps) step) :
    Standing text (steps ++ [step]) hash token := by
  obtain ⟨before, issued, after, rfl, hissues, hsince⟩ := h
  refine ⟨before, issued, after ++ [step], by simp, hissues, fun between s rest heq => ?_⟩
  rcases List.eq_nil_or_concat' rest with rfl | ⟨rest, last, rfl⟩
  · obtain ⟨rfl, hlast⟩ := List.append_inj' heq rfl
    cases hlast
    exact hstep
  · refine hsince between s rest ?_
    rw [← List.cons_append, ← List.append_assoc] at heq
    exact (List.append_inj' heq rfl).1

lemma standing_issued (h : Issues text (.afterAll text steps) step hash token) :
    Standing text (steps ++ [step]) hash token :=
  ⟨steps, step, [], rfl, h, fun between s rest heq => by simp at heq⟩

lemma inStep_nil : InStep text [] .empty := by
  refine ⟨?_, ?_, ?_, Nat.zero_le _⟩ <;> simp [TokenStore.empty, Stored]

lemma InStep.of_rows_eq {after : TokenStore} (h : InStep text steps (.afterAll text steps))
    (hrows : after.rows = (TokenStore.afterAll text steps).rows)
    (hcopied : ∀ (hash : String) token, after.tokens[hash]? = some token →
      Stored text (.afterAll text steps) hash token)
    (hstep : ¬ Revokes text (.afterAll text steps) step) :
    InStep text (steps ++ [step]) after := by
  have hstored : ∀ hash token, Stored text after hash token ↔
      Stored text (.afterAll text steps) hash token := by
    intro hash token
    rw [Stored, hrows, Stored]
  refine ⟨fun hash token htoken => (hstored hash token).2 (hcopied hash token htoken),
    fun hash token hrow => ?_, ?_, ?_⟩
  · exact (h.standing hash token ((hstored hash token).1 hrow)).snoc fun _ => hstep
  · rw [hrows]
    exact h.ids
  · rw [hrows]
    exact h.bounded

lemma InStep.revoking (h : InStep text steps (.afterAll text steps)) (hstep : Withdraws step)
    (hinformed : ∀ hash token, Stored text (.afterAll text steps) hash token →
      Covers token step → (TokenStore.afterAll text steps).tokens.contains hash) :
    InStep text (steps ++ [step]) ((TokenStore.afterAll text steps).after text step).1 := by
  rcases revoking_cases text h.distinctIds hstep with ⟨message, heq⟩ | ⟨gone, hgone, heq⟩
  · have hfailed : ¬ Revokes text (.afterAll text steps) step := by
      intro hrevokes
      rw [Revokes, heq] at hrevokes
      cases hrevokes
    rw [heq]
    exact h.of_rows_eq rfl h.copied hfailed
  · rw [heq]
    have hstored : ∀ hash token, Stored text
        ⟨(TokenStore.afterAll text steps).rows.filter fun hash _ => !gone hash,
          (TokenStore.afterAll text steps).tokens.filter fun hash _ => !gone hash⟩ hash token ↔
        Stored text (.afterAll text steps) hash token ∧ gone hash = false := by
      intro hash token
      rw [Stored, get_filter_key, Stored]
      cases gone hash <;> simp
    refine ⟨fun hash token htoken => ?_, fun hash token hrow => ?_,
      fun hash other row row' hrow hrow' hid => ?_, ?_⟩
    · rw [get_filter_key] at htoken
      rw [hstored]
      cases hkey : gone hash with
      | true => simp [hkey] at htoken
      | false => exact ⟨h.copied hash token (by simpa [hkey] using htoken), rfl⟩
    · obtain ⟨hrow, hkey⟩ := (hstored hash token).1 hrow
      refine (h.standing hash token hrow).snoc fun hcovers => ?_
      have hmem := hinformed hash token hrow hcovers
      obtain ⟨known, hknown⟩ := Option.isSome_iff_exists.1
        ((Std.ExtTreeMap.contains_eq_isSome_getElem? (a := hash)).symm.trans hmem)
      have hsame := h.copied hash known hknown
      rw [Stored, show _ = some token from hrow] at hsame
      cases hsame
      rw [(hgone hash token hknown).2 hcovers] at hkey
      cases hkey
    · rw [get_filter_key] at hrow hrow'
      split at hrow
      · cases hrow
      · split at hrow'
        · cases hrow'
        · exact h.ids hash other row row' hrow hrow' hid
    · exact Std.ExtTreeMap.size_filter_le_size.trans h.bounded

lemma InStep.issued (h : InStep text steps (.afterAll text steps))
    (hissues : Issues text (.afterAll text steps) step hash token)
    (hcreated : token.created ≤ maxSeconds)
    (hroom : (TokenStore.afterAll text steps).rows.size < maxTokens)
    (hids : ∀ (other : String) row, (TokenStore.afterAll text steps).rows[other]? = some row →
      row.id ≠ token.id.text) :
    InStep text (steps ++ [step])
      ⟨(TokenStore.afterAll text steps).rows.insert hash (TokenStore.writeRow text token),
        (TokenStore.afterAll text steps).tokens.insert hash token⟩ := by
  have hnot : ¬ Revokes text (.afterAll text steps) step := by
    obtain ⟨secret, hanswer, -⟩ := hissues
    rw [Revokes, hanswer]
    exact fun hrevokes => by cases hrevokes
  refine ⟨fun other t ht => ?_, fun other t hrow => ?_, fun a b row row' hrow hrow' hid => ?_, ?_⟩
  · rw [Stored, Map.get_insert]
    rcases Map.get_insert_some ht with ⟨rfl, rfl⟩ | ⟨hne, ht⟩
    · rw [if_pos rfl]
      exact read_writeRow hcreated
    · rw [if_neg hne]
      exact h.copied other t ht
  · rw [Stored, Map.get_insert] at hrow
    split at hrow
    · next heq =>
      subst heq
      obtain rfl : token = t := Option.some.inj ((read_writeRow hcreated).symm.trans hrow)
      exact standing_issued hissues
    · exact (h.standing other t hrow).snoc fun _ => hnot
  · rcases Map.get_insert_some hrow with ⟨rfl, rfl⟩ | ⟨-, hrow⟩
    · rcases Map.get_insert_some hrow' with ⟨rfl, -⟩ | ⟨-, hrow'⟩
      · rfl
      · exact (hids b row' hrow' hid.symm).elim
    · rcases Map.get_insert_some hrow' with ⟨rfl, rfl⟩ | ⟨-, hrow'⟩
      · exact (hids a row hrow hid).elim
      · exact h.ids a b row row' hrow hrow' hid
  · exact Std.ExtTreeMap.size_insert_le.trans hroom

lemma InStep.snoc (h : InStep text steps (.afterAll text steps))
    (hinformed : Informed text (.afterAll text steps) step) :
    InStep text (steps ++ [step]) (.afterAll text (steps ++ [step])) := by
  rw [afterAll_snoc]
  cases step with
  | issue id name user scopes extension secret now fails =>
    have hnot : ¬ Revokes text (.afterAll text steps)
        (.issue id name user scopes extension secret now fails) := by
      intro hrevokes
      cases hrevokes
    rcases issue_cases text (.afterAll text steps) id name user scopes extension secret now fails
      with ⟨e, heq⟩ | ⟨token, hid, hcreated, hroom, hkey, hids, heq⟩
    · have hafter : ((TokenStore.afterAll text steps).after text
          (.issue id name user scopes extension secret now fails)).1 = .afterAll text steps := by
        simp only [TokenStore.after, heq]
      rw [hafter]
      exact h.of_rows_eq rfl h.copied hnot
    · have hissues : Issues text (.afterAll text steps)
          (.issue id name user scopes extension secret now fails) (text.fingerprint secret) token :=
        ⟨secret, by simp only [TokenStore.after, heq], rfl⟩
      simp only [TokenStore.after, heq]
      exact h.issued hissues hcreated (hinformed hroom) (fun other row hrow => hids other row hrow)
  | find secret => exact h.of_rows_eq rfl h.copied (by intro hrevokes; cases hrevokes)
  | restart reads =>
    refine h.of_rows_eq rfl (fun hash token htoken => ?_) (by intro hrevokes; cases hrevokes)
    cases reads with
    | false => simp [TokenStore.after, TokenStore.open_] at htoken
    | true => simpa [TokenStore.after, TokenStore.open_, Stored] using htoken
  | revoke id fails => exact h.revoking trivial hinformed
  | revokeUser user fails => exact h.revoking trivial hinformed
  | revokeAll fails => exact h.revoking trivial hinformed

lemma inStep_of_informed (steps : List TokenStep)
    (hinformed : ∀ before step after, steps = before ++ step :: after →
      Informed text (.afterAll text before) step) :
    InStep text steps (.afterAll text steps) := by
  induction steps using List.reverseRecOn with
  | nil => exact inStep_nil
  | append_singleton steps step ih =>
    refine InStep.snoc (ih fun before s after heq => ?_) (hinformed steps step [] rfl)
    exact hinformed before s (after ++ [step]) (by rw [heq]; simp)

end Runs

def plainText : TokenText where
  fingerprint := id
  writeScopes scopes := String.ofList (scopes.map fun scope => match scope with
    | .registryRead => 'r'
    | .statesRead => 's'
    | .eventsRead => 'e'
    | .servicesCall => 'c'
    | .historyRead => 'h')
  readScopes text := text.toList.mapM fun c =>
    if c = 'r' then some .registryRead
    else if c = 's' then some .statesRead
    else if c = 'e' then some .eventsRead
    else if c = 'c' then some .servicesCall
    else if c = 'h' then some .historyRead
    else none
  read_write scopes := by
    rw [String.toList_ofList, List.mapM_map]
    induction scopes with
    | nil => rfl
    | cons scope scopes ih => cases scope <;> simp [List.mapM_cons, ih]

def tablet : TokenId := ⟨"tablet", by decide⟩

def nico : UserId := ⟨"nico", by decide⟩

/-- A token is made, Irori starts again with its table locked, every token is revoked, and Irori
starts again. -/
def lockedOut : List TokenStep :=
  [.issue tablet "Tablet" nico [.statesRead] none "irori_1" 0 none, .restart false,
    .revokeAll none, .restart true]

/-- What becomes of one row and of its copy: both stay, both go, or both are new. -/
def Together (text : TokenText) (store next : TokenStore) (hash : String) : Prop :=
  (next.rows[hash]? = store.rows[hash]? ∧ next.tokens[hash]? = store.tokens[hash]?) ∨
    (next.rows[hash]? = none ∧ next.tokens[hash]? = none) ∨
      ∃ token, next.tokens[hash]? = some token ∧ Stored text next hash token

lemma together_dropTokens (keep : String → AccessToken → Bool) (fails : Option String) :
    Together text store (store.dropTokens keep fails).1 hash := by
  rcases dropTokens_cases store keep fails with ⟨message, hsame⟩ | ⟨gone, -, hgone⟩
  · rw [hsame]
    exact .inl ⟨rfl, rfl⟩
  · rw [hgone, Together, get_filter_key, get_filter_key]
    cases gone hash
    · exact .inl ⟨rfl, rfl⟩
    · exact .inr (.inl ⟨rfl, rfl⟩)

lemma together_after {step : TokenStep} (hstep : ∀ reads, step ≠ .restart reads) :
    Together text store (store.after text step).1 hash := by
  cases step with
  | issue id name user scopes extension secret now fails =>
    rcases issue_cases text store id name user scopes extension secret now fails with
      ⟨e, hsame⟩ | ⟨token, -, hcreated, -, -, -, hissued⟩
    · simp only [TokenStore.after, hsame]
      exact .inl ⟨rfl, rfl⟩
    · simp only [TokenStore.after, hissued]
      by_cases hhash : text.fingerprint secret = hash
      · subst hhash
        refine .inr (.inr ⟨token, Map.get_insert_self _ _ _, ?_⟩)
        rw [Stored, Map.get_insert_self, Option.bind_some]
        exact read_writeRow hcreated
      · rw [Together, Map.get_insert, Map.get_insert, if_neg hhash, if_neg hhash]
        exact .inl ⟨rfl, rfl⟩
  | revoke id fails =>
    cases hfind : store.tokens.toList.find? fun entry => entry.2.id = id with
    | none =>
      simp only [TokenStore.after, TokenStore.revoke, hfind]
      exact .inl ⟨rfl, rfl⟩
    | some entry =>
      have hdropped : Together text store
          (store.dropTokens (fun other _ => other != entry.1) fails).1 hash :=
        together_dropTokens _ fails
      cases hkept : store.dropTokens (fun other _ => other != entry.1) fails with
      | mk kept answer =>
        rw [hkept] at hdropped
        cases answer <;> simpa only [TokenStore.after, TokenStore.revoke, hfind, hkept]
  | revokeUser user fails => exact together_dropTokens (fun _ token => token.user ≠ user) fails
  | revokeAll fails => exact together_dropTokens (fun _ _ => false) fails
  | find secret => exact .inl ⟨rfl, rfl⟩
  | restart reads => exact absurd rfl (hstep reads)

lemma get_restart (store : TokenStore) (hash : String) :
    (store.after text (.restart true)).1.tokens[hash]? =
      (store.rows[hash]?).bind (TokenStore.readRow text) :=
  Std.ExtTreeMap.getElem?_filterMap'

/-- What holds of every row with the copy that is read of it, and of rows without one where a restart
reads none, holds of all there are. -/
lemma entry_afterAll {P : Option TokenRow → Option AccessToken → Prop} (steps : List TokenStep)
    (hread : ∀ row, P row (row.bind (TokenStore.readRow text)))
    (hunread : .restart false ∈ steps → ∀ row, P row none) (hash : String) :
    P (TokenStore.afterAll text steps).rows[hash]? (TokenStore.afterAll text steps).tokens[hash]? := by
  induction steps using List.reverseRecOn with
  | nil => simpa [TokenStore.afterAll, TokenStore.empty] using hread none
  | append_singleton steps step ih =>
    rw [afterAll_snoc]
    by_cases hrestart : ∃ reads, step = .restart reads
    · obtain ⟨reads, rfl⟩ := hrestart
      cases reads with
      | false => simpa [TokenStore.after, TokenStore.open_] using hunread (by simp) _
      | true =>
        rw [get_restart]
        exact hread _
    · rcases together_after (not_exists.mp hrestart) with
        ⟨hrow, hsame⟩ | ⟨hrow, hgone⟩ | ⟨token, htoken, hstored⟩
      · rw [hrow, hsame]
        exact ih fun hearlier => hunread (List.mem_append_left _ hearlier)
      · rw [hrow, hgone]
        exact hread none
      · rw [htoken, ← hstored]
        exact hread _

/-- A restart loses no token: what is found is found after one that reads the table, whatever failed
before. When every restart before it read the table, it changes nothing. -/
theorem lasts_afterAll (text : TokenText) (steps : List TokenStep) :
    (∀ secret token, (TokenStore.afterAll text steps).find text secret = some token →
      (TokenStore.afterAll text (steps ++ [.restart true])).find text secret = some token) ∧
    ((∀ step ∈ steps, step ≠ .restart false) →
      TokenStore.afterAll text (steps ++ [.restart true]) = TokenStore.afterAll text steps) := by
  rw [afterAll_snoc]
  constructor
  · intro secret token hfound
    refine (get_restart _ _).trans ?_
    exact entry_afterAll (P := fun row copy => ∀ token, copy = some token →
      row.bind (TokenStore.readRow text) = some token) steps (fun _ _ hcopy => hcopy)
      (fun _ _ _ hnone => by cases hnone) _ token hfound
  · intro hreads
    have htokens : ((TokenStore.afterAll text steps).after text (.restart true)).1.tokens =
        (TokenStore.afterAll text steps).tokens := by
      refine Std.ExtTreeMap.ext_getElem? fun hash => ?_
      rw [get_restart]
      exact entry_afterAll (P := fun row copy => row.bind (TokenStore.readRow text) = copy) steps
        (fun _ => rfl) (fun hunread => absurd rfl (hreads _ hunread)) hash
    exact congrArg (TokenStore.mk _) htokens

end Irori.Proofs
