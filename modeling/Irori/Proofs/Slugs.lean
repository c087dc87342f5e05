import Std.Data.String.ToNat
import Irori.Home.Registry

/-!
# New ids

The id of a new entity is always there to be found, and nothing has it yet, as long as the home
has fewer entities than there are numbers to tell ids apart.
-/

namespace Irori.Proofs
open Irori

def SlugBase (base : String) : Prop :=
  SlugLike base.toList ∧ base.toList.length ≤ slugMaxLen

lemma doubled_append (before after : List Char) :
    doubled (before ++ '_' :: '_' :: after) = true := by
  induction before with
  | nil => rfl
  | cons a before ih =>
    cases before with
    | nil => simp [doubled]
    | cons b before => rw [List.cons_append, List.cons_append, doubled, ← List.cons_append, ih,
        Bool.or_true]

lemma slugBase_of_checkSlug {what value : String} (h : checkSlug what value = .ok ()) :
    SlugBase value ∧ value.toList ≠ [] := by
  unfold checkSlug at h
  simp only [List.isEmpty_iff] at h
  split at h
  · cases h
  · next hne =>
    split at h
    · cases h
    · next hsize =>
      split at h
      · cases h
      · next hall =>
        split at h
        · cases h
        · next hsep =>
          simp only [Bool.not_eq_true, Bool.not_eq_false', List.all_eq_true] at hall
          simp only [Bool.or_eq_true, beq_iff_eq, not_or, Bool.not_eq_true] at hsep
          refine ⟨⟨⟨⟨hsep.1.1, hsep.1.2, fun before after heq => ?_⟩, hall⟩, ?_⟩, hne⟩
          · rw [heq, doubled_append] at hsep
            exact absurd hsep.2 (by simp)
          · have hlen := utf8ByteSize_ofList value.toList fun c hc => isSlugChar_ascii (hall c hc)
            rw [String.ofList_toList] at hlen
            omega

lemma checkSlug_of_slugBase {what value : String} (h : SlugBase value) (hne : value.toList ≠ []) :
    checkSlug what value = .ok () := by
  have hcheck : checkSlug what (String.ofList value.toList) = .ok () := checkSlug_ofList h.1 hne h.2
  rwa [String.ofList_toList] at hcheck

lemma slugBase_slug {what : String} (s : Slug what) : SlugBase s.text :=
  (slugBase_of_checkSlug s.wellFormed).1

lemma slugBase_slugify (text : String) : SlugBase (slugify text) := by
  unfold slugify SlugBase
  rw [String.toList_ofList]
  exact ⟨slugCut_slugLike (slugWords_slugLike text) _, Words.length_trimmed_le _ _ _⟩

lemma domain_slug (kind : EntityKind) : checkSlug "kind" kind.domain = .ok () := by
  cases kind <;> decide

lemma mem_repr {n : Nat} {c : Char} (h : c ∈ n.repr.toList) : isSlugChar c = true ∧ c ≠ '_' := by
  rw [Nat.toList_repr] at h
  have hdigit := Nat.isDigit_of_mem_toDigits (by omega) (by omega) h
  refine ⟨?_, ?_⟩
  · simp only [Char.isDigit, Bool.and_eq_true, decide_eq_true_eq] at hdigit
    simp only [isSlugChar, Bool.or_eq_true, Bool.and_eq_true, decide_eq_true_eq]
    exact .inl (.inr hdigit)
  · rintro rfl
    simp at hdigit

lemma toList_numbered (base : String) (n : Nat) :
    (numbered base n).toList =
      slugCut (slugMaxLen - (n.repr.toList.length + 1)) base.toList ++ '_' :: n.repr.toList := by
  have hlen : ("_" ++ n.repr).length = n.repr.toList.length + 1 := by
    rw [String.length_append, String.length_toList]
    exact Nat.add_comm _ _
  unfold numbered
  simp only [hlen, String.toList_append, String.toList_ofList]
  rfl

lemma append_sep_inj {α : Type} {sep : α} {l l' r r' : List α} (hr : sep ∉ r) (hr' : sep ∉ r')
    (h : l ++ sep :: r = l' ++ sep :: r') : r = r' := by
  rcases List.append_eq_append_iff.mp h with ⟨a, -, ha⟩ | ⟨a, -, ha⟩
  · cases a with
    | nil => exact (List.cons.inj ha).2
    | cons x a =>
      rw [List.cons_append, List.cons.injEq] at ha
      exact absurd (by rw [ha.2]; simp) hr
  · cases a with
    | nil => exact (List.cons.inj ha).2.symm
    | cons x a =>
      rw [List.cons_append, List.cons.injEq] at ha
      exact absurd (by rw [ha.2]; simp) hr'

lemma numbered_injective (base : String) : Function.Injective (numbered base) := by
  intro n m h
  have hlist := congrArg String.toList h
  rw [toList_numbered, toList_numbered] at hlist
  have hdigits := append_sep_inj (fun hmem => (mem_repr hmem).2 rfl)
    (fun hmem => (mem_repr hmem).2 rfl) hlist
  exact Nat.repr_injective (String.toList_inj.mp hdigits)

lemma length_repr_le {n : Nat} (h : n < 2 ^ 31) : n.repr.toList.length ≤ 10 := by
  rw [String.length_toList, Nat.length_repr_le_iff (by omega)]
  omega

lemma slugBase_numbered {base : String} {n : Nat} (h : SlugBase base) (hne : base.toList ≠ [])
    (hn : n < 2 ^ 31) : SlugBase (numbered base n) ∧ (numbered base n).toList ≠ [] := by
  have hlen := length_repr_le hn
  have hcut := slugCut_slugLike h.1 (slugMaxLen - (n.repr.toList.length + 1))
  refine ⟨⟨⟨?_, ?_⟩, ?_⟩, ?_⟩
  · rw [toList_numbered]
    refine Words.separated_append hcut.1 (Words.separated_word fun hmem => (mem_repr hmem).2 rfl)
      (Words.trimmed_ne_nil h.1.1 hne ?_) ?_
    · rw [slugMaxLen]
      omega
    · rw [Nat.toList_repr]
      exact List.ne_nil_of_length_pos Nat.length_toDigits_pos
  · rw [toList_numbered]
    intro c hc
    rcases List.mem_append.mp hc with hc | hc
    · exact hcut.2 c hc
    · rcases List.mem_cons.mp hc with rfl | hc
      · decide
      · exact (mem_repr hc).1
  · rw [toList_numbered, List.length_append, List.length_cons]
    have htrim := Words.length_trimmed_le (· == '_') base.toList
      (slugMaxLen - (n.repr.toList.length + 1))
    simp only [slugCut, slugMaxLen] at htrim ⊢
    omega
  · rw [toList_numbered]
    simp

lemma findFree_free {base : String} {taken : String → Bool} {n rounds : Nat} {id : String}
    (h : findFree base taken n rounds = some id) :
    taken id = false ∧ ∃ m, n ≤ m ∧ m < n + rounds ∧ id = numbered base m := by
  induction rounds generalizing n with
  | zero => cases h
  | succ rounds ih =>
    rw [findFree] at h
    split at h
    · obtain ⟨hfree, m, hle, hlt, rfl⟩ := ih h
      exact ⟨hfree, m, by omega, by omega, rfl⟩
    · next hfree =>
      rw [Option.some.injEq] at h
      subst h
      exact ⟨by simpa using hfree, n, le_rfl, by omega, rfl⟩

lemma findFree_none {base : String} {taken : String → Bool} {n rounds : Nat}
    (h : findFree base taken n rounds = none) (m : Nat) (hle : n ≤ m) (hlt : m < n + rounds) :
    taken (numbered base m) = true := by
  induction rounds generalizing n with
  | zero => omega
  | succ rounds ih =>
    rw [findFree] at h
    split at h
    · next htaken =>
      rcases Nat.eq_or_lt_of_le hle with rfl | hlt'
      · exact htaken
      · exact ih h hlt' (by omega)
    · cases h

lemma uniqueIdFor_free {base fallback : String} {taken : String → Bool} {id : String}
    (hbase : SlugBase base) (hfallback : SlugBase fallback) (hne : fallback.toList ≠ [])
    (h : uniqueIdFor base fallback taken = some id) :
    taken id = false ∧ SlugBase id ∧ id.toList ≠ [] := by
  unfold uniqueIdFor at h
  dsimp only at h
  have hstart : SlugBase (if base.isEmpty then fallback else base) ∧
      (if base.isEmpty then fallback else base).toList ≠ [] := by
    split
    · exact ⟨hfallback, hne⟩
    · next hbase' => exact ⟨hbase, by simpa using hbase'⟩
  generalize (if base.isEmpty then fallback else base) = start at h hstart
  split at h
  · obtain ⟨hfree, m, hle, hlt, rfl⟩ := findFree_free h
    exact ⟨hfree, slugBase_numbered hstart.1 hstart.2 (by rw [idNumbers] at hlt; omega)⟩
  · next hfree =>
    rw [Option.some.injEq] at h
    rw [h] at hfree hstart
    exact ⟨by simpa using hfree, hstart⟩

lemma uniqueIdFor_none {base fallback : String} {taken : String → Bool}
    (h : uniqueIdFor base fallback taken = none) :
    ∃ start : String, ∀ m, 2 ≤ m → m < 2 + idNumbers → taken (numbered start m) = true := by
  unfold uniqueIdFor at h
  dsimp only at h
  generalize (if base.isEmpty then fallback else base) = start at h
  split at h
  · exact ⟨start, findFree_none h⟩
  · cases h

lemma takeWhile_append_of_all {α : Type} {p : α → Bool} {l r : List α} (h : ∀ x ∈ l, p x = true) :
    (l ++ r).takeWhile p = l ++ r.takeWhile p ∧ (l ++ r).dropWhile p = r.dropWhile p := by
  induction l with
  | nil => exact ⟨rfl, rfl⟩
  | cons x l ih =>
    have hx := h x List.mem_cons_self
    obtain ⟨htake, hdrop⟩ := ih fun y hy => h y (List.mem_cons_of_mem _ hy)
    simp [hx, htake, hdrop]

lemma splitOnce_new (kind : EntityKind) (objectId : String) :
    splitOnce '.' (kind.domain ++ "." ++ objectId) = some (kind.domain, objectId) := by
  have hdot : ∀ c ∈ kind.domain.toList, (c != '.') = true := by
    intro c hc
    have hslug := (slugBase_of_checkSlug (domain_slug kind)).1.1.2 c hc
    rw [bne_iff_ne]
    rintro rfl
    exact absurd hslug (by decide)
  have hlist : (kind.domain ++ "." ++ objectId).toList =
      kind.domain.toList ++ '.' :: objectId.toList := by simp
  unfold splitOnce
  simp only [hlist, takeWhile_append_of_all hdot]
  simp

lemma fromDomain_domain (kind : EntityKind) : EntityKind.fromDomain kind.domain = some kind := by
  cases kind <;> decide

lemma new_ok (kind : EntityKind) {objectId : String} (h : SlugBase objectId)
    (hne : objectId.toList ≠ []) : ∃ id, EntityId.new kind objectId = .ok id := by
  have hcheck : checkEntityId (kind.domain ++ "." ++ objectId) = .ok () := by
    unfold checkEntityId
    rw [splitOnce_new]
    simp only [fromDomain_domain, Option.isNone_some, Bool.false_eq_true, if_false]
    exact checkSlug_of_slugBase h hne
  refine ⟨⟨_, hcheck⟩, ?_⟩
  unfold EntityId.new EntityId.parse
  split
  · rfl
  · next heq =>
    rw [hcheck] at heq
    cases heq

lemma new_text {kind : EntityKind} {objectId : String} {id : EntityId}
    (h : EntityId.new kind objectId = .ok id) : id.text = kind.domain ++ "." ++ objectId :=
  EntityId.parse_text h

lemma new_injective {kind : EntityKind} {o o' : String} {id : EntityId}
    (h : EntityId.new kind o = .ok id) (h' : EntityId.new kind o' = .ok id) : o = o' := by
  have htext := (new_text h).symm.trans (new_text h')
  have hlist := congrArg String.toList htext
  simp only [String.toList_append, List.append_cancel_left_eq] at hlist
  exact String.toList_inj.mp hlist

variable {κ σ : Type}

lemma newEntityId_fresh {home : Core.Home κ σ} {kind : EntityKind} {base : String}
    {id : EntityId} (hbase : SlugBase base) (h : home.newEntityId kind base = some id) :
    home.entities[id]? = none := by
  unfold Core.Home.newEntityId at h
  simp only [Option.bind_eq_some_iff] at h
  obtain ⟨objectId, hunique, hnew⟩ := h
  obtain ⟨hdomain, hne⟩ := slugBase_of_checkSlug (domain_slug kind)
  obtain ⟨hfree, hslug, hne'⟩ := uniqueIdFor_free hbase hdomain hne hunique
  obtain ⟨id', hid'⟩ := new_ok kind hslug hne'
  rw [hid'] at hnew
  obtain rfl : id' = id := by simpa [Except.toOption] using hnew
  rw [hid'] at hfree
  exact Std.ExtTreeMap.getElem?_eq_none_of_contains_eq_false hfree

lemma newEntityId_isSome (home : Core.Home κ σ) (kind : EntityKind) {base : String}
    (hbase : SlugBase base) (hroom : home.entities.size < idNumbers) :
    ∃ id, home.newEntityId kind base = some id := by
  obtain ⟨hdomain, hne⟩ := slugBase_of_checkSlug (domain_slug kind)
  unfold Core.Home.newEntityId
  dsimp only
  generalize htaken : (fun objectId => _ : String → Bool) = taken
  cases hunique : uniqueIdFor base kind.domain taken with
  | some objectId =>
    obtain ⟨-, hslug, hne'⟩ := uniqueIdFor_free hbase hdomain hne hunique
    obtain ⟨id, hid⟩ := new_ok kind hslug hne'
    exact ⟨id, by rw [Option.bind_some, hid]; rfl⟩
  | none =>
    obtain ⟨start, hall⟩ := uniqueIdFor_none hunique
    -- Every number's id is the id of an entity, and no two are the same.
    have hid : ∀ m : Nat, ∃ id, m < idNumbers → EntityId.new kind (numbered start (2 + m)) = .ok id ∧
        id ∈ home.entities.keys := by
      intro m
      by_cases hm : m < idNumbers
      · have htrue := hall (2 + m) (by omega) (by omega)
        rw [← htaken] at htrue
        dsimp only at htrue
        split at htrue
        · next id hnew => exact ⟨id, fun _ => ⟨hnew, by simpa using htrue⟩⟩
        · cases htrue
      · exact ⟨(new_ok kind hdomain hne).choose, fun h => absurd h hm⟩
    choose id hid using hid
    have hcard := Finset.card_le_card_of_injOn (s := Finset.range idNumbers)
      (t := home.entities.keys.toFinset) id
      (fun m hm => List.mem_toFinset.mpr (hid m (Finset.mem_range.mp hm)).2)
      (fun m hm n hn heq => by
        have hm' := (hid m (Finset.mem_range.mp hm)).1
        have hn' := (hid n (Finset.mem_range.mp hn)).1
        rw [← heq] at hn'
        have hinj := numbered_injective start (new_injective hm' hn')
        omega)
    have hkeys := List.toFinset_card_le home.entities.keys
    rw [Finset.card_range] at hcard
    rw [Std.ExtTreeMap.length_keys] at hkeys
    omega

end Irori.Proofs
