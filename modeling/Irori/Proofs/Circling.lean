import Irori.Helpers.Loops
import Mathlib.Logic.Relation

/-!
# Helpers are refused exactly where they read each other in a ring

The search keeps the path it came by and nothing else. A path has no node twice and only nodes that
read something, so it ends; and where it finds nothing, nothing that can be reached lies on the path
that leads there.
-/

namespace Irori.Helpers

variable {reads : Map String (List String)} {here : String} {path ring : List String} {fuel : Nat}

def Reads (reads : Map String (List String)) (a b : String) : Prop := b ∈ (reads[a]?).getD []

/-- Entities that each read the next, and that end where they began. -/
structure IsRing (R : String → String → Prop) (ring : List String) : Prop where
  chain : ring.IsChain R
  closed : ring.head? = ring.getLast?
  long : 1 < ring.length

lemma findSomeM_none {α β : Type} {f : α → Option (Option β)} {l : List α} :
    l.findSomeM? f = some none ↔ ∀ x ∈ l, f x = some none := by
  induction l with
  | nil => simp
  | cons a l ih =>
    rw [List.findSomeM?_cons, List.forall_mem_cons, ← ih]
    cases h : f a with
    | none => simp
    | some found => cases found <;> simp

lemma findSomeM_some {α β : Type} {f : α → Option (Option β)} {l : List α} {b : β}
    (h : l.findSomeM? f = some (some b)) : ∃ x ∈ l, f x = some (some b) := by
  induction l with
  | nil => simp at h
  | cons a l ih =>
    rw [List.findSomeM?_cons] at h
    cases hfirst : f a with
    | none => simp [hfirst] at h
    | some found =>
      cases found with
      | some b' =>
        rw [hfirst] at h
        exact ⟨a, List.mem_cons_self, hfirst.trans h⟩
      | none =>
        rw [hfirst] at h
        obtain ⟨x, hx, hfound⟩ := ih h
        exact ⟨x, List.mem_cons_of_mem a hx, hfound⟩

lemma findSomeM_isSome {α β : Type} {f : α → Option (Option β)} {l : List α}
    (h : ∀ x ∈ l, (f x).isSome) : (l.findSomeM? f).isSome := by
  induction l with
  | nil => rfl
  | cons a l ih =>
    obtain ⟨found, hfound⟩ := Option.isSome_iff_exists.mp (h a List.mem_cons_self)
    rw [List.findSomeM?_cons, hfound]
    cases found with
    | some b => rfl
    | none => exact ih fun x hx => h x (List.mem_cons_of_mem a hx)

lemma visit_isSome : ∀ (fuel : Nat) (here : String) (path : List String), path.Nodup →
    path ⊆ reads.keys → reads.keys.length + 2 ≤ fuel + path.length →
    (visit reads fuel here path).isSome := by
  intro fuel
  induction fuel with
  | zero =>
    intro here path hnodup hkeys hfuel
    have hlength := (List.subperm_of_subset hnodup hkeys).length_le
    omega
  | succ fuel ih =>
    intro here path hnodup hkeys hfuel
    rw [visit]
    split
    · rfl
    · next hnew =>
      have hnotMem : here ∉ path := List.idxOf?_eq_none_iff.mp hnew
      refine findSomeM_isSome fun next hnext => ih next _ ?_ ?_ ?_
      · rw [List.nodup_append]
        exact ⟨hnodup, by simp, fun a ha b hb => by
          rintro rfl
          exact hnotMem (List.mem_singleton.mp hb ▸ ha)⟩
      · refine List.append_subset.mpr ⟨hkeys, List.cons_subset.mpr ⟨?_, by simp⟩⟩
        rw [Std.ExtTreeMap.mem_keys, Std.ExtTreeMap.mem_iff_isSome_getElem?]
        cases hread : reads[here]? with
        | none => simp [hread] at hnext
        | some sources => rfl
      · rw [List.length_append, List.length_singleton]
        omega

lemma visit_ring : ∀ (fuel : Nat) (here : String) (path : List String),
    (path ++ [here]).IsChain (Reads reads) → visit reads fuel here path = some (some ring) →
    IsRing (Reads reads) ring := by
  intro fuel
  induction fuel with
  | zero =>
    intro here path _ h
    simp [visit] at h
  | succ fuel ih =>
    intro here path hchain h
    rw [visit] at h
    split at h
    · next from_ hseen =>
      obtain ⟨hfrom, hat, -⟩ := List.idxOf?_eq_some_iff.mp hseen
      rw [Option.some.injEq, Option.some.injEq] at h
      have hdrop : path.drop from_ = here :: path.drop (from_ + 1) := by
        rw [List.drop_eq_getElem_cons hfrom, hat]
      rw [← h]
      refine ⟨?_, ?_, ?_⟩
      · rw [← List.drop_append_of_le_length (by omega)]
        exact hchain.drop from_
      · rw [hdrop, List.getLast?_append]
        rfl
      · rw [hdrop]
        simp
    · obtain ⟨next, hnext, hfound⟩ := findSomeM_some h
      refine ih next _ ?_ hfound
      rw [List.isChain_append]
      refine ⟨hchain, by simp, fun a ha b hb => ?_⟩
      rw [List.getLast?_append] at ha
      simp only [List.getLast?_singleton, Option.some_or, Option.mem_def, Option.some.injEq,
        List.head?_cons] at ha hb
      rw [← ha, ← hb]
      exact hnext

lemma IsRing.cycle {R : String → String → Prop} (h : IsRing R ring) :
    ∃ a : String, Relation.TransGen R a a := by
  match ring, h with
  | a :: b :: rest, h =>
    refine ⟨a, ?_⟩
    have hfirst : R a b := (List.isChain_cons_cons.mp h.chain).1
    have hrest : Relation.ReflTransGen R b ((b :: rest).getLast (by simp)) :=
      List.relationReflTransGen_of_exists_isChain_cons rest (List.isChain_cons_cons.mp h.chain).2 rfl
    have hlast : (b :: rest).getLast (by simp) = a := by
      have hclosed := h.closed
      rw [List.getLast?_cons_cons, List.getLast?_eq_some_getLast (by simp)] at hclosed
      exact (Option.some.inj hclosed).symm
    exact Relation.TransGen.head' hfirst (hlast ▸ hrest)

lemma visit_clear {a b : String} (hreach : Relation.TransGen (Reads reads) a b) :
    ∀ (fuel : Nat) (path : List String), visit reads fuel a path = some none →
      b ∉ path ++ [a] := by
  have hnext : ∀ {a : String} {fuel : Nat} {path : List String}, visit reads fuel a path = some none →
      ∀ c : String, Reads reads a c → ∃ less, visit reads less c (path ++ [a]) = some none := by
    intro a fuel path h c hc
    cases fuel with
    | zero => simp [visit] at h
    | succ fuel =>
      rw [visit] at h
      split at h
      · simp at h
      · exact ⟨fuel, findSomeM_none.mp h c hc⟩
  induction hreach using Relation.TransGen.head_induction_on with
  | single hread =>
    intro fuel path h
    obtain ⟨less, hclear⟩ := hnext h _ hread
    cases less with
    | zero => simp [visit] at hclear
    | succ less =>
      rw [visit] at hclear
      split at hclear
      · simp at hclear
      · next hnew => exact List.idxOf?_eq_none_iff.mp hnew
  | head hread _ ih =>
    intro fuel path h
    obtain ⟨less, hclear⟩ := hnext h _ hread
    exact fun hmem => ih less _ hclear (List.mem_append_left _ hmem)

def ReadBy (made : List Made) (a b : String) : Prop :=
  ∃ one ∈ made, ∃ spec : Spec, one.role = .computed spec ∧ one.entityId = a ∧
    b ∈ spec.sources.map EntityId.text

/-- Helpers that would each be another entity: all that come this far. -/
def Distinct (made : List Made) : Prop := (made.map Made.entityId).Nodup

lemma mem_read {made : List Made} {a : String} {sources : List String} :
    (a, sources) ∈ made.filterMap Made.read ↔ ∃ one ∈ made, ∃ spec : Spec,
      one.role = .computed spec ∧ one.entityId = a ∧ spec.sources.map EntityId.text = sources := by
  rw [List.mem_filterMap]
  refine exists_congr fun one => and_congr_right fun _ => ?_
  unfold Made.read
  cases one.role with
  | computed spec => simp
  | _ => simp

lemma distinct_read {made : List Made} (hdistinct : Distinct made) :
    (made.filterMap Made.read).Pairwise fun x y => ¬ compare x.1 y.1 = .eq := by
  rw [List.pairwise_filterMap]
  refine (List.pairwise_map.mp hdistinct).imp fun {one other} hne x hx y hy => ?_
  have hentity : ∀ {one : Made} {x : String × List String}, one.read = some x →
      x.1 = one.entityId := by
    intro one x hread
    unfold Made.read at hread
    split at hread
    · exact (Option.some.inj hread) ▸ rfl
    · simp at hread
  rw [compare_eq_iff_eq, hentity hx, hentity hy]
  exact hne

lemma reads_iff {made : List Made} (hdistinct : Distinct made) (a b : String) :
    Reads (Std.ExtTreeMap.ofList (made.filterMap Made.read) compare) a b ↔ ReadBy made a b := by
  unfold Reads ReadBy
  by_cases hmem : a ∈ (made.filterMap Made.read).map Prod.fst
  · obtain ⟨⟨a, sources⟩, hread, rfl⟩ := List.mem_map.mp hmem
    rw [Std.ExtTreeMap.getElem?_ofList_of_mem (compare_eq_iff_eq.mpr rfl) (distinct_read hdistinct) hread,
      Option.getD_some]
    obtain ⟨one, hone, spec, hrole, hentity, hsources⟩ := mem_read.mp hread
    constructor
    · exact fun hb => ⟨one, hone, spec, hrole, hentity, hsources ▸ hb⟩
    · rintro ⟨other, hother, spec', hrole', hentity', hb⟩
      have hsame : other = one :=
        List.inj_on_of_nodup_map hdistinct hother hone (hentity'.trans hentity.symm)
      rw [hsame, hrole, Role.computed.injEq] at hrole'
      rw [← hsources, hrole']
      exact hb
  · rw [Std.ExtTreeMap.getElem?_ofList_of_contains_eq_false (by simpa using hmem), Option.getD_none]
    refine iff_of_false (by simp) ?_
    rintro ⟨one, hone, spec, hrole, hentity, -⟩
    exact hmem (List.mem_map.mpr ⟨(a, _), mem_read.mpr ⟨one, hone, spec, hrole, hentity, rfl⟩, rfl⟩)

/-- With enough fuel the search answers: it takes helpers exactly where none reads itself in the
end, and else names a ring of them. -/
theorem noLoops_iff {made : List Made} (hdistinct : Distinct made) (fuel : Nat)
    (hfuel : made.length + 2 ≤ fuel) :
    ∃ answer : Except String Unit, noLoops made fuel = some answer ∧
      (answer = .ok () ↔ ∀ a : String, ¬ Relation.TransGen (ReadBy made) a a) ∧
      ∀ message : String, answer = .error message → ∃ ring : List String,
        IsRing (ReadBy made) ring ∧
          message = "these helpers read each other in a ring: " ++ String.intercalate " → " ring := by
  have hsame : Reads (Std.ExtTreeMap.ofList (made.filterMap Made.read) compare) = ReadBy made :=
    funext fun a => funext fun b => propext (reads_iff hdistinct a b)
  unfold noLoops
  dsimp only
  generalize hreads : Std.ExtTreeMap.ofList (made.filterMap Made.read) compare = reads at hsame
  have hsize : reads.keys.length ≤ made.length := by
    rw [← hreads, Std.ExtTreeMap.length_keys]
    exact Std.ExtTreeMap.size_ofList_le.trans (List.length_filterMap_le _ _)
  obtain ⟨found, hfound⟩ := Option.isSome_iff_exists.mp (findSomeM_isSome fun start _ =>
    visit_isSome fuel start [] List.nodup_nil (List.nil_subset reads.keys)
      (by rw [List.length_nil]; omega))
  rw [hfound, Option.map_some]
  refine ⟨_, rfl, ?_⟩
  cases found with
  | none =>
    refine ⟨iff_of_true rfl fun a hcycle => ?_, by simp⟩
    have hkey : a ∈ reads.keys := by
      obtain ⟨b, hread, -⟩ := Relation.TransGen.head'_iff.mp hcycle
      rw [← hsame] at hread
      rw [Std.ExtTreeMap.mem_keys, Std.ExtTreeMap.mem_iff_isSome_getElem?]
      cases hat : reads[a]? with
      | none => simp [Reads, hat] at hread
      | some sources => rfl
    rw [← hsame] at hcycle
    exact visit_clear hcycle fuel [] (findSomeM_none.mp hfound a hkey) (by simp)
  | some ring =>
    obtain ⟨start, -, hring⟩ := findSomeM_some hfound
    have hisRing : IsRing (ReadBy made) ring := hsame ▸ visit_ring fuel start [] (by simp) hring
    obtain ⟨a, hcycle⟩ := hisRing.cycle
    refine ⟨iff_of_false (by simp) fun hnone => hnone a hcycle, fun message hmessage => ?_⟩
    exact ⟨ring, hisRing, (Except.error.inj hmessage).symm⟩

def hall : List Made :=
  [⟨.sensor, some ⟨"hall", by decide⟩, .computed (.group [⟨"number.lux", by decide⟩])⟩,
    ⟨.binarySensor, some ⟨"dark", by decide⟩, .computed (.threshold ⟨"sensor.hall", by decide⟩)⟩]

theorem noLoops_iff_hall : ∃ answer : Except String Unit, noLoops hall 4 = some answer ∧
    (answer = .ok () ↔ ∀ a : String, ¬ Relation.TransGen (ReadBy hall) a a) ∧
    ∀ message : String, answer = .error message → ∃ ring : List String,
      IsRing (ReadBy hall) ring ∧
        message = "these helpers read each other in a ring: " ++ String.intercalate " → " ring :=
  noLoops_iff (by unfold Distinct; decide) 4 (by decide)

end Irori.Helpers
