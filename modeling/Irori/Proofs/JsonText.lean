import Irori.Rules.Eval

/-!
# Reading JSON back

JSON that is written the same is the same: where a value ends can be told from its text, so two
texts that begin alike begin with one value.
-/

namespace Irori.Proofs

open Irori

def hexValue (c : Char) : Nat :=
  if c.isDigit then c.toNat - '0'.toNat else c.toNat - 'a'.toNat + 10

/-- The first character written inside a JSON string, and what is written after it. -/
def readChar : List Char → Option (Char × List Char)
  | '\\' :: 'u' :: _ :: _ :: high :: low :: rest =>
    some (Char.ofNat (hexValue high * 16 + hexValue low), rest)
  | '\\' :: c :: rest =>
    let read := match c with
      | 'b' => '\x08'
      | 'f' => '\x0c'
      | 'n' => '\n'
      | 'r' => '\r'
      | 't' => '\t'
      | c => c
    some (read, rest)
  | c :: rest => some (c, rest)
  | [] => none

lemma hexValue_digitChar {n : Nat} (h : n < 16) : hexValue (Nat.digitChar n) = n := by
  interval_cases n <;> rfl

lemma readChar_jsonChar (c : Char) (rest : List Char) :
    readChar (jsonChar c ++ rest) = some (c, rest) := by
  unfold jsonChar
  split
  case h_8 c hquote hslash _ _ _ _ _ =>
    split
    · next hlow =>
      have hsplit : ∀ n : Nat, n / 16 * 16 + n % 16 = n := fun n => by omega
      simp only [List.cons_append, List.nil_append, readChar]
      rw [hexValue_digitChar (by omega), hexValue_digitChar (by omega), hsplit, Char.ofNat_toNat]
    · rw [List.singleton_append]
      unfold readChar
      split <;> simp_all
  all_goals rfl

lemma jsonChar_ne_quote (c : Char) (rest rest' : List Char) : jsonChar c ++ rest ≠ '"' :: rest' := by
  unfold jsonChar
  split
  case h_8 c hquote hslash _ _ _ _ _ =>
    split
    · simp
    · simpa using fun hc => absurd hc hquote
  all_goals simp

lemma chars_append_inj (as : List Char) : ∀ (bs u v : List Char),
    as.flatMap jsonChar ++ '"' :: u = bs.flatMap jsonChar ++ '"' :: v → as = bs ∧ u = v := by
  induction as with
  | nil =>
    intro bs u v h
    cases bs with
    | nil => simpa using h
    | cons b bs =>
      rw [List.flatMap_cons, List.append_assoc] at h
      exact absurd h.symm (jsonChar_ne_quote b _ _)
  | cons a as ih =>
    intro bs u v h
    cases bs with
    | nil =>
      rw [List.flatMap_cons, List.append_assoc] at h
      exact absurd h (jsonChar_ne_quote a _ _)
    | cons b bs =>
      have hread := congrArg readChar h
      simp only [List.flatMap_cons, List.append_assoc, readChar_jsonChar, Option.some.injEq,
        Prod.mk.injEq] at hread
      obtain ⟨rfl, hrest⟩ := hread
      obtain ⟨rfl, hends⟩ := ih bs u v hrest
      exact ⟨rfl, hends⟩

lemma jsonString_append_inj {a b : String} {u v : List Char}
    (h : jsonString a ++ u = jsonString b ++ v) : a = b ∧ u = v := by
  have hchars : a.toList.flatMap jsonChar ++ '"' :: u = b.toList.flatMap jsonChar ++ '"' :: v := by
    simpa [jsonString] using h
  obtain ⟨htext, hends⟩ := chars_append_inj _ _ _ _ hchars
  exact ⟨String.toList_inj.mp htext, hends⟩

def numberChars : List Char := "0123456789+-.eE".toList

structure NumberTexts (showNumber : Number → String) : Prop where
  plain : ∀ (n : Number), ∀ c ∈ (showNumber n).toList, c ∈ numberChars
  said : ∀ n : Number, (showNumber n).toList ≠ []
  own : Function.Injective showNumber

def Ends (rest : List Char) : Prop := ∀ c ∈ rest.head?, c ∈ [',', ']', '}']

lemma Ends.not_number {c : Char} {rest : List Char} (h : Ends (c :: rest)) : c ∉ numberChars := by
  have hc := h c rfl
  simp only [List.mem_cons, List.not_mem_nil, or_false] at hc
  rcases hc with rfl | rfl | rfl <;> decide

lemma plain_append_inj {as bs : List Char} : ∀ {u v : List Char}, (∀ c ∈ as, c ∈ numberChars) →
    (∀ c ∈ bs, c ∈ numberChars) → Ends u → Ends v → as ++ u = bs ++ v → as = bs ∧ u = v := by
  induction as generalizing bs with
  | nil =>
    intro u v _ hbs hu _ h
    cases bs with
    | nil => exact ⟨rfl, h⟩
    | cons b bs =>
      subst h
      exact absurd (hbs b List.mem_cons_self) hu.not_number
  | cons a as ih =>
    intro u v has hbs hu hv h
    cases bs with
    | nil =>
      rw [List.nil_append] at h
      subst h
      exact absurd (has a List.mem_cons_self) hv.not_number
    | cons b bs =>
      rw [List.cons_append, List.cons_append, List.cons.injEq] at h
      obtain ⟨rfl, hends⟩ := ih (fun c hc => has c (List.mem_cons_of_mem _ hc))
        (fun c hc => hbs c (List.mem_cons_of_mem _ hc)) hu hv h.2
      exact ⟨by rw [h.1], hends⟩

def kindOf (c : Char) : Nat :=
  if c = 'n' then 0
  else if c = 't' ∨ c = 'f' then 1
  else if c ∈ numberChars then 2
  else if c = '"' then 3
  else if c = '[' then 4
  else if c = '{' then 5
  else 6

def kindOfJson : Json → Nat
  | .null => 0
  | .bool _ => 1
  | .number _ => 2
  | .string _ => 3
  | .array _ => 4
  | .object _ => 5

section

variable {showNumber : Number → String}

lemma write_head (h : NumberTexts showNumber) (a : Json) (rest : List Char) :
    ((a.write showNumber ++ rest).head?).map kindOf = some (kindOfJson a) := by
  cases a with
  | null => rfl
  | bool b => cases b <;> rfl
  | number n =>
    rw [Json.write]
    cases hn : (showNumber n).toList with
    | nil => exact absurd hn (h.said n)
    | cons c cs =>
      have hc := h.plain n c (by rw [hn]; exact List.mem_cons_self)
      have hall : numberChars.all (fun c => kindOf c == 2) = true := by decide
      have hkind : kindOf c = 2 := by simpa using List.all_eq_true.mp hall c hc
      simp [hkind, kindOfJson]
  | string s => rfl
  | array items => rfl
  | object entries => rfl

lemma kind_eq (h : NumberTexts showNumber) {a b : Json} {u v : List Char}
    (heq : a.write showNumber ++ u = b.write showNumber ++ v) : kindOfJson a = kindOfJson b := by
  have ha := write_head h a u
  rw [heq, write_head h b v, Option.some.injEq] at ha
  exact ha.symm

lemma write_ne_end (h : NumberTexts showNumber) (a : Json) {c : Char} (hc : kindOf c = 6)
    (u v : List Char) : a.write showNumber ++ u ≠ c :: v := by
  intro heq
  have ha := write_head h a u
  rw [heq, List.head?_cons, Option.map_some, hc, Option.some.injEq] at ha
  cases a <;> simp [kindOfJson] at ha

lemma ends_cons {c : Char} (hc : c ∈ [',', ']', '}']) (rest : List Char) : Ends (c :: rest) := by
  intro d hd
  rw [List.head?_cons, Option.mem_def, Option.some.injEq] at hd
  exact hd ▸ hc

/-- What is written after an item that others may follow. -/
def more {α : Type} (others : List α) (written : List Char) : List Char :=
  match others with
  | [] => []
  | _ :: _ => ',' :: written

lemma writeItems_cons (a : Json) (as : List Json) : Json.writeItems showNumber (a :: as) =
    a.write showNumber ++ more as (Json.writeItems showNumber as) := by
  cases as with
  | nil => simp [Json.writeItems, more]
  | cons b bs => simp [Json.writeItems, more]

lemma writeEntries_cons (key : String) (a : Json) (as : List (String × Json)) :
    Json.writeEntries showNumber ((key, a) :: as) =
      jsonString key ++ ':' :: (a.write showNumber ++ more as (Json.writeEntries showNumber as)) := by
  cases as with
  | nil => simp [Json.writeEntries, more]
  | cons b bs => simp [Json.writeEntries, more]

lemma ends_more {α : Type} {others : List α} (written : List Char) {c : Char}
    (hc : c ∈ [',', ']', '}']) (rest : List Char) : Ends (more others written ++ c :: rest) := by
  cases others with
  | nil => exact ends_cons hc rest
  | cons other others => exact ends_cons (by simp) _

mutual

theorem write_append_inj (h : NumberTexts showNumber) : ∀ (a b : Json) (u v : List Char), Ends u →
    Ends v → a.write showNumber ++ u = b.write showNumber ++ v → a = b ∧ u = v
  | .null, b, u, v, _, _, heq => by
    cases b with
    | null => exact ⟨rfl, List.append_cancel_left heq⟩
    | _ => exact absurd (kind_eq h heq) (by simp [kindOfJson])
  | .bool a, b, u, v, _, _, heq => by
    cases b with
    | bool b =>
      cases a <;> cases b
      · exact ⟨rfl, List.append_cancel_left heq⟩
      · exact absurd (congrArg List.head? heq) (by simp [Json.write])
      · exact absurd (congrArg List.head? heq) (by simp [Json.write])
      · exact ⟨rfl, List.append_cancel_left heq⟩
    | _ => exact absurd (kind_eq h heq) (by simp [kindOfJson])
  | .number a, b, u, v, hu, hv, heq => by
    cases b with
    | number b =>
      obtain ⟨htext, hends⟩ := plain_append_inj (h.plain a) (h.plain b) hu hv heq
      exact ⟨congrArg Json.number (h.own (String.toList_inj.mp htext)), hends⟩
    | _ => exact absurd (kind_eq h heq) (by simp [kindOfJson])
  | .string a, b, u, v, _, _, heq => by
    cases b with
    | string b =>
      obtain ⟨rfl, hends⟩ := jsonString_append_inj heq
      exact ⟨rfl, hends⟩
    | _ => exact absurd (kind_eq h heq) (by simp [kindOfJson])
  | .array as, b, u, v, _, _, heq => by
    cases b with
    | array bs =>
      simp only [Json.write, List.cons_append, List.append_assoc, List.nil_append, List.cons.injEq,
        true_and] at heq
      obtain ⟨rfl, hends⟩ := writeItems_append_inj h as bs u v heq
      exact ⟨rfl, hends⟩
    | _ => exact absurd (kind_eq h heq) (by simp [kindOfJson])
  | .object as, b, u, v, _, _, heq => by
    cases b with
    | object bs =>
      simp only [Json.write, List.cons_append, List.append_assoc, List.nil_append, List.cons.injEq,
        true_and] at heq
      obtain ⟨rfl, hends⟩ := writeEntries_append_inj h as bs u v heq
      exact ⟨rfl, hends⟩
    | _ => exact absurd (kind_eq h heq) (by simp [kindOfJson])

theorem writeItems_append_inj (h : NumberTexts showNumber) : ∀ (as bs : List Json)
    (u v : List Char), Json.writeItems showNumber as ++ ']' :: u =
      Json.writeItems showNumber bs ++ ']' :: v → as = bs ∧ u = v
  | [], bs, u, v, heq => by
    cases bs with
    | nil => simpa [Json.writeItems] using heq
    | cons b bs =>
      rw [writeItems_cons, List.append_assoc] at heq
      exact absurd heq.symm (write_ne_end h b (by decide) _ _)
  | a :: as, bs, u, v, heq => by
    cases bs with
    | nil =>
      rw [writeItems_cons, List.append_assoc] at heq
      exact absurd heq (write_ne_end h a (by decide) _ _)
    | cons b bs =>
      rw [writeItems_cons, writeItems_cons, List.append_assoc, List.append_assoc] at heq
      obtain ⟨rfl, hrest⟩ := write_append_inj h a b _ _ (ends_more _ (by simp) u)
        (ends_more _ (by simp) v) heq
      cases as with
      | nil =>
        cases bs with
        | nil => simpa [more] using hrest
        | cons b' bs => simp [more] at hrest
      | cons a' as =>
        cases bs with
        | nil => simp [more] at hrest
        | cons b' bs =>
          simp only [more, List.cons_append, List.cons.injEq, true_and] at hrest
          obtain ⟨heqs, hends⟩ := writeItems_append_inj h (a' :: as) (b' :: bs) u v hrest
          exact ⟨by rw [heqs], hends⟩

theorem writeEntries_append_inj (h : NumberTexts showNumber) : ∀ (as bs : List (String × Json))
    (u v : List Char), Json.writeEntries showNumber as ++ '}' :: u =
      Json.writeEntries showNumber bs ++ '}' :: v → as = bs ∧ u = v
  | [], bs, u, v, heq => by
    cases bs with
    | nil => simpa [Json.writeEntries] using heq
    | cons b bs =>
      obtain ⟨key, b⟩ := b
      simp [Json.writeEntries, writeEntries_cons, jsonString] at heq
  | (key, a) :: as, bs, u, v, heq => by
    cases bs with
    | nil => simp [Json.writeEntries, writeEntries_cons, jsonString] at heq
    | cons b bs =>
      obtain ⟨key', b⟩ := b
      rw [writeEntries_cons, writeEntries_cons, List.append_assoc, List.append_assoc] at heq
      obtain ⟨rfl, hvalue⟩ := jsonString_append_inj heq
      simp only [List.cons_append, List.append_assoc, List.cons.injEq, true_and] at hvalue
      obtain ⟨rfl, hrest⟩ := write_append_inj h a b _ _ (ends_more _ (by simp) u)
        (ends_more _ (by simp) v) hvalue
      cases as with
      | nil =>
        cases bs with
        | nil => simpa [more] using hrest
        | cons b' bs => simp [more] at hrest
      | cons a' as =>
        cases bs with
        | nil => simp [more] at hrest
        | cons b' bs =>
          simp only [more, List.cons_append, List.cons.injEq, true_and] at hrest
          obtain ⟨heqs, hends⟩ := writeEntries_append_inj h (a' :: as) (b' :: bs) u v hrest
          exact ⟨by rw [heqs], hends⟩

end

theorem write_injective (h : NumberTexts showNumber) :
    Function.Injective (Json.write showNumber) := by
  intro a b heq
  have hnothing : Ends [] := by simp [Ends]
  exact (write_append_inj h a b [] [] hnothing hnothing (by rw [heq])).1

lemma showJson_injective {env : Env} (h : NumberTexts env.showNumber) :
    Function.Injective env.showJson := by
  intro a b heq
  exact write_injective h (String.ofList_inj.mp heq)

end

end Irori.Proofs
