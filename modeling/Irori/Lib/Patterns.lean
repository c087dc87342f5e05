import Mathlib.Computability.RegularExpressions
import Mathlib.Tactic

/-!
# Patterns

Expressions over letters as patterns are written: classes, words, counted repetitions and lists with
separators. This file says what each of them matches.
-/

namespace Patterns

open RegularExpression

variable {α : Type}

/-- `[…]`: one of some letters. -/
def oneOf (letters : List α) : RegularExpression α := letters.foldr (fun a r => char a + r) 0

def literal (word : List α) : RegularExpression α := word.foldr (fun a r => char a * r) 1

/-- `?` -/
def atMostOnce (r : RegularExpression α) : RegularExpression α := 1 + r

def upTo (n : ℕ) (r : RegularExpression α) : RegularExpression α := atMostOnce r ^ n

/-- `+` -/
def onceOrMore (r : RegularExpression α) : RegularExpression α := r * r.star

def between (a b : Char) : List Char :=
  (List.range' a.toNat (b.toNat + 1 - a.toNat)).map Char.ofNat

lemma mem_between {a b c : Char} (hb : b.toNat < 0xd800) : c ∈ between a b ↔ a ≤ c ∧ c ≤ b := by
  unfold between
  simp only [List.mem_map, List.mem_range'_1]
  constructor
  · rintro ⟨n, hn, rfl⟩
    have hvalid : n.isValidChar := Or.inl (by omega)
    have hn' : (Char.ofNat n).toNat = n := by
      unfold Char.ofNat
      rw [dif_pos hvalid]
      rfl
    rw [Char.le_def, Char.le_def, UInt32.le_iff_toNat_le, UInt32.le_iff_toNat_le]
    change a.toNat ≤ (Char.ofNat n).toNat ∧ (Char.ofNat n).toNat ≤ b.toNat
    omega
  · intro h
    rw [Char.le_def, Char.le_def, UInt32.le_iff_toNat_le, UInt32.le_iff_toNat_le] at h
    change a.toNat ≤ c.toNat ∧ c.toNat ≤ b.toNat at h
    exact ⟨c.toNat, by omega, Char.ofNat_toNat c⟩

@[simp] lemma mem_char {a : α} {w : List α} : w ∈ (char a).matches' ↔ w = [a] := Iff.rfl

@[simp] lemma mem_plain_add {r s : RegularExpression α} {w : List α} :
    w ∈ (r + s).matches' ↔ w ∈ r.matches' ∨ w ∈ s.matches' := Iff.rfl

lemma mem_mul {r s : RegularExpression α} {w : List α} :
    w ∈ (r * s).matches' ↔ ∃ u ∈ r.matches', ∃ v ∈ s.matches', u ++ v = w := Language.mem_mul

@[simp] lemma mem_atMostOnce {r : RegularExpression α} {w : List α} :
    w ∈ (atMostOnce r).matches' ↔ w = [] ∨ w ∈ r.matches' := Iff.rfl

@[simp] lemma mem_oneOf {letters w : List α} :
    w ∈ (oneOf letters).matches' ↔ ∃ a ∈ letters, w = [a] := by
  induction letters with
  | nil => simp [oneOf, matches'_zero, Language.notMem_zero]
  | cons a letters ih =>
    change w ∈ (char a + oneOf letters).matches' ↔ _
    rw [mem_plain_add, mem_char, ih, List.exists_mem_cons_iff]

@[simp] lemma mem_literal {word w : List α} : w ∈ (literal word).matches' ↔ w = word := by
  induction word generalizing w with
  | nil => exact Iff.rfl
  | cons a word ih =>
    change w ∈ (char a * literal word).matches' ↔ _
    rw [mem_mul]
    constructor
    · rintro ⟨u, rfl, v, hv, rfl⟩
      rw [ih.1 hv]
      rfl
    · rintro rfl
      exact ⟨[a], rfl, word, ih.2 rfl, rfl⟩

lemma mem_star_oneOf {letters w : List α} :
    w ∈ (oneOf letters).star.matches' ↔ ∀ a ∈ w, a ∈ letters := by
  rw [matches'_star, Language.mem_kstar]
  constructor
  · rintro ⟨words, rfl, h⟩ a ha
    obtain ⟨word, hword, ha⟩ := List.mem_flatten.1 ha
    obtain ⟨b, hb, rfl⟩ := mem_oneOf.1 (h word hword)
    rwa [List.mem_singleton.1 ha]
  · intro h
    refine ⟨w.map fun a => [a], (List.flatMap_singleton' w).symm, fun word hword => ?_⟩
    obtain ⟨a, ha, rfl⟩ := List.mem_map.1 hword
    exact mem_oneOf.2 ⟨a, h a ha, rfl⟩

lemma mem_upTo_oneOf {n : ℕ} {letters w : List α} :
    w ∈ (upTo n (oneOf letters)).matches' ↔ w.length ≤ n ∧ ∀ a ∈ w, a ∈ letters := by
  unfold upTo
  rw [matches'_pow]
  induction n generalizing w with
  | zero =>
    rw [pow_zero, Language.mem_one, Nat.le_zero, List.length_eq_zero_iff]
    exact ⟨fun h => ⟨h, by simp [h]⟩, fun h => h.1⟩
  | succ n ih =>
    rw [pow_succ, Language.mem_mul]
    constructor
    · rintro ⟨u, hu, v, hv, rfl⟩
      obtain ⟨hlength, hu⟩ := ih.1 hu
      rcases mem_atMostOnce.1 hv with rfl | hv
      · rw [List.append_nil]
        exact ⟨by omega, hu⟩
      · obtain ⟨a, ha, rfl⟩ := mem_oneOf.1 hv
        refine ⟨by simpa using hlength, fun b hb => ?_⟩
        rcases List.mem_append.1 hb with hb | hb
        · exact hu b hb
        · rwa [List.mem_singleton.1 hb]
    · rintro ⟨hlength, hw⟩
      rcases List.eq_nil_or_concat w with rfl | ⟨init, a, rfl⟩
      · exact ⟨[], ih.2 (by simp), [], Or.inl rfl, rfl⟩
      · rw [List.concat_eq_append] at hlength hw ⊢
        exact ⟨init, ih.2 ⟨by simpa using hlength, fun b hb => hw b (by simp [hb])⟩, [a],
          Or.inr (mem_oneOf.2 ⟨a, hw a (by simp), rfl⟩), rfl⟩

def letters : RegularExpression α → List α
  | .zero | .epsilon => []
  | .char a => [a]
  | .plus r s | .comp r s => letters r ++ letters s
  | .star r => letters r

lemma mem_letters {r : RegularExpression α} {w : List α} (h : w ∈ r.matches') :
    ∀ a ∈ w, a ∈ letters r := by
  induction r generalizing w with
  | zero => exact absurd h (Language.notMem_zero w)
  | epsilon =>
    rw [(Language.mem_one w).1 h]
    simp
  | char b =>
    rw [mem_char.1 h]
    simp [letters]
  | plus r s hr hs =>
    intro a ha
    rcases h with h | h
    · exact List.mem_append_left _ (hr h a ha)
    · exact List.mem_append_right _ (hs h a ha)
  | comp r s hr hs =>
    obtain ⟨u, hu, v, hv, rfl⟩ := h
    intro a ha
    rcases List.mem_append.1 ha with ha | ha
    · exact List.mem_append_left _ (hr hu a ha)
    · exact List.mem_append_right _ (hs hv a ha)
  | star r hr =>
    obtain ⟨words, rfl, hwords⟩ := h
    intro a ha
    obtain ⟨word, hword, ha⟩ := List.mem_flatten.1 ha
    exact hr (hwords word hword) a ha

lemma notMem_of_letters {r : RegularExpression α} {a : α} (h : a ∉ letters r) :
    ∀ word ∈ r.matches', a ∉ word := fun _ hword ha => h (mem_letters hword a ha)

section Separators

variable [DecidableEq α] {sep : α} {r : RegularExpression α} {w : List α}

omit [DecidableEq α] in
lemma intercalate_cons (first : List α) (parts : List (List α)) :
    [sep].intercalate (first :: parts) = first ++ (parts.map (sep :: ·)).flatten := by
  induction parts generalizing first with
  | nil => simp
  | cons part parts ih => simp [List.intercalate_cons_cons, ih]

lemma mem_splitOn {a : α} (h : a ∈ w) : a = sep ∨ ∃ part ∈ w.splitOn sep, a ∈ part := by
  obtain ⟨first, parts, hparts⟩ := List.exists_cons_of_ne_nil (List.splitOn_ne_nil sep w)
  rw [← (List.intercalate_splitOn sep : [sep].intercalate (w.splitOn sep) = w), hparts,
    intercalate_cons, List.mem_append] at h
  rw [hparts]
  rcases h with h | h
  · exact Or.inr ⟨first, List.mem_cons_self, h⟩
  · obtain ⟨_, hmem, ha⟩ := List.mem_flatten.1 h
    obtain ⟨part, hpart, rfl⟩ := List.mem_map.1 hmem
    rcases List.mem_cons.1 ha with rfl | ha
    · exact Or.inl rfl
    · exact Or.inr ⟨part, List.mem_cons_of_mem _ hpart, ha⟩

lemma mem_sepBy (hsep : ∀ word ∈ r.matches', sep ∉ word) :
    w ∈ (r * (char sep * r).star).matches' ↔ ∀ part ∈ w.splitOn sep, part ∈ r.matches' := by
  rw [mem_mul]
  constructor
  · rintro ⟨first, hfirst, rest, hrest, rfl⟩
    obtain ⟨words, rfl, hwords⟩ := Language.mem_kstar.1 hrest
    clear hrest
    induction words generalizing first with
    | nil =>
      rw [List.flatten_nil, List.append_nil, List.splitOn_eq_singleton (hsep first hfirst)]
      simpa using hfirst
    | cons word words ih =>
      obtain ⟨_, rfl, next, hnext, rfl⟩ := mem_mul.1 (hwords word List.mem_cons_self)
      have hrest := ih next hnext fun y hy => hwords y (List.mem_cons_of_mem _ hy)
      rw [List.flatten_cons, List.append_assoc, List.singleton_append,
        List.splitOn_append_cons_self_of_not_mem (hsep first hfirst)]
      exact List.forall_mem_cons.2 ⟨hfirst, hrest⟩
  · intro h
    obtain ⟨first, parts, hparts⟩ := List.exists_cons_of_ne_nil (List.splitOn_ne_nil sep w)
    rw [hparts, List.forall_mem_cons] at h
    refine ⟨first, h.1, (parts.map (sep :: ·)).flatten, Language.join_mem_kstar ?_, ?_⟩
    · intro word hword
      obtain ⟨part, hpart, rfl⟩ := List.mem_map.1 hword
      exact mem_mul.2 ⟨[sep], rfl, part, h.2 part hpart, rfl⟩
    · rw [← intercalate_cons, ← hparts, List.intercalate_splitOn]

lemma mem_onceOrMore_sep (hsep : ∀ word ∈ r.matches', sep ∉ word) :
    w ∈ (onceOrMore (char sep * r)).matches' ↔
      ∃ rest, w = sep :: rest ∧ ∀ part ∈ rest.splitOn sep, part ∈ r.matches' := by
  have hassoc : (onceOrMore (char sep * r)).matches' =
      (char sep * (r * (char sep * r).star)).matches' := by
    simp only [onceOrMore, matches'_mul, mul_assoc]
  rw [hassoc, mem_mul]
  constructor
  · rintro ⟨_, rfl, rest, hrest, rfl⟩
    exact ⟨rest, rfl, (mem_sepBy hsep).1 hrest⟩
  · rintro ⟨rest, rfl, hrest⟩
    exact ⟨[sep], rfl, rest, (mem_sepBy hsep).2 hrest, rfl⟩

lemma mem_star_sep (hsep : ∀ word ∈ r.matches', sep ∉ word) :
    w ∈ (char sep * r).star.matches' ↔
      w = [] ∨ ∃ rest, w = sep :: rest ∧ ∀ part ∈ rest.splitOn sep, part ∈ r.matches' := by
  rw [← mem_onceOrMore_sep hsep, matches'_star, ← Language.one_add_self_mul_kstar_eq_kstar]
  exact Iff.rfl

lemma mem_ending {s : RegularExpression α} (hr : ∀ word ∈ r.matches', sep ∉ word)
    (hs : ∀ word ∈ s.matches', sep ∉ word) :
    w ∈ (onceOrMore (r * char sep) * s).matches' ↔ ∃ words last, words ≠ [] ∧
      w.splitOn sep = words ++ [last] ∧ (∀ word ∈ words, word ∈ r.matches') ∧
        last ∈ s.matches' := by
  have hplus : onceOrMore (r * char sep) * s = r * char sep * (r * char sep).star * s := rfl
  rw [hplus, mem_mul]
  constructor
  · rintro ⟨u, hu, last, hlast, rfl⟩
    obtain ⟨_, ⟨first, hfirst, _, rfl, rfl⟩, v, hv, rfl⟩ := hu
    obtain ⟨words, rfl, hwords⟩ := Language.mem_kstar.1 hv
    clear hv
    induction words generalizing first with
    | nil =>
      refine ⟨[first], last, by simp, ?_, List.forall_mem_singleton.2 hfirst, hlast⟩
      have hsplit := List.splitOn_append_cons_self_of_not_mem (hr first hfirst) last
      simpa [List.splitOn_eq_singleton (hs last hlast)] using hsplit
    | cons word words ih =>
      obtain ⟨next, hnext, _, rfl, rfl⟩ := mem_mul.1 (hwords word List.mem_cons_self)
      obtain ⟨others, last', -, hsplit, hothers, hlast'⟩ :=
        ih next hnext fun y hy => hwords y (List.mem_cons_of_mem _ hy)
      refine ⟨first :: others, last', by simp, ?_, List.forall_mem_cons.2 ⟨hfirst, hothers⟩, hlast'⟩
      have hcut := List.splitOn_append_cons_self_of_not_mem (hr first hfirst)
        (next ++ [sep] ++ words.flatten ++ last)
      rw [hsplit] at hcut
      simpa using hcut
  · rintro ⟨words, last, hne, hsplit, hwords, hlast⟩
    have hw : w = (words.map (· ++ [sep])).flatten ++ last := by
      rw [← (List.intercalate_splitOn sep : [sep].intercalate (w.splitOn sep) = w), hsplit]
      clear hsplit hwords hne
      induction words with
      | nil => simp
      | cons word words ih => cases words <;> simp_all [List.intercalate_cons_cons]
    obtain ⟨first, words, rfl⟩ := List.exists_cons_of_ne_nil hne
    have hword : ∀ word ∈ first :: words, word ++ [sep] ∈ (r * char sep).matches' :=
      fun word hword => mem_mul.2 ⟨word, hwords word hword, [sep], rfl, rfl⟩
    refine ⟨_, ⟨first ++ [sep], hword first List.mem_cons_self, (words.map (· ++ [sep])).flatten,
      Language.join_mem_kstar ?_, rfl⟩, last, hlast, by simp [hw]⟩
    intro y hy
    obtain ⟨word, hmem, rfl⟩ := List.mem_map.1 hy
    exact hword word (List.mem_cons_of_mem _ hmem)

end Separators

section Cut

variable [DecidableEq α] {x : α} {sep : List α}

lemma dropInfix_none {w : List α} (h : x ∉ w) : w.dropInfix? (x :: sep) = none := by
  cases hcut : w.dropInfix? (x :: sep) with
  | none => rfl
  | some parts =>
    obtain ⟨before, after⟩ := parts
    obtain ⟨⟨middle, hw, hmiddle⟩, -⟩ := List.dropInfix?_eq_some_iff.1 hcut
    rw [eq_of_beq hmiddle] at hw
    exact absurd (hw ▸ by simp) h

lemma dropInfix_append {before : List α} (h : x ∉ before) (after : List α) :
    (before ++ (x :: sep ++ after)).dropInfix? (x :: sep) = some (before, after) := by
  rw [List.dropInfix?_eq_some_iff]
  refine ⟨⟨x :: sep, by simp, by simp⟩, fun before' middle after' hw hmiddle => ?_⟩
  rw [eq_of_beq hmiddle] at hw
  by_contra hlt
  have hlt : before'.length < before.length := not_le.1 hlt
  have hx : (before ++ (x :: sep ++ after))[before'.length]? = some x := by
    rw [hw]
    simp
  rw [List.getElem?_append_left hlt] at hx
  exact h (List.mem_of_getElem? hx)

lemma dropPrefix_iff {w word rest : List α} :
    w.dropPrefix? word = some rest ↔ w = word ++ rest := by
  rw [List.dropPrefix?_eq_some_iff]
  constructor
  · rintro ⟨front, hw, hfront⟩
    rw [hw, eq_of_beq hfront]
  · rintro rfl
    exact ⟨word, rfl, beq_self_eq_true word⟩

lemma mem_after {word w : List α} {r : RegularExpression α} :
    w ∈ (literal word * r).matches' ↔
      ∃ rest, w.dropPrefix? word = some rest ∧ rest ∈ r.matches' := by
  rw [mem_mul]
  constructor
  · rintro ⟨front, hfront, rest, hrest, rfl⟩
    rw [mem_literal.1 hfront]
    exact ⟨rest, dropPrefix_iff.2 rfl, hrest⟩
  · rintro ⟨rest, hw, hrest⟩
    exact ⟨word, mem_literal.2 rfl, rest, hrest, (dropPrefix_iff.1 hw).symm⟩

lemma eq_of_dropInfix {w before after : List α}
    (h : w.dropInfix? (x :: sep) = some (before, after)) : w = before ++ (x :: sep ++ after) := by
  obtain ⟨⟨middle, hw, hmiddle⟩, -⟩ := List.dropInfix?_eq_some_iff.1 h
  rw [hw, eq_of_beq hmiddle, List.append_assoc]

/-- Whether a text is a word or one with a second one after a separator, told from where it is
cut. -/
lemma mem_cut {r s : RegularExpression α} (hr : ∀ word ∈ r.matches', x ∉ word) {w : List α} :
    w ∈ (r * atMostOnce (literal (x :: sep) * s)).matches' ↔
      match w.dropInfix? (x :: sep) with
      | some (before, after) => before ∈ r.matches' ∧ after ∈ s.matches'
      | none => w ∈ r.matches' := by
  rw [mem_mul]
  constructor
  · rintro ⟨before, hbefore, rest, rfl | hrest, rfl⟩
    · rw [List.append_nil, dropInfix_none (hr before hbefore)]
      exact hbefore
    · obtain ⟨mark, hmark, after, hafter, rfl⟩ := mem_mul.1 hrest
      rw [mem_literal.1 hmark, dropInfix_append (hr before hbefore)]
      exact ⟨hbefore, hafter⟩
  · intro h
    cases hcut : w.dropInfix? (x :: sep) with
    | none =>
      rw [hcut] at h
      exact ⟨w, h, [], Or.inl rfl, List.append_nil w⟩
    | some parts =>
      rw [hcut] at h
      exact ⟨parts.1, h.1, x :: sep ++ parts.2,
        Or.inr (mem_mul.2 ⟨_, mem_literal.2 rfl, parts.2, h.2, rfl⟩), (eq_of_dropInfix hcut).symm⟩

end Cut

end Patterns
