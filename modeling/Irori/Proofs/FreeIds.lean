import Irori.Home.FreeIds
import Irori.Proofs.Slugs

/-!
# Every new id is a slug

What the core makes ids of devices, rooms and entities with: a text that is a slug, or nothing, gets
an id that nothing has and that is a slug, as long as a number is left to tell it apart by. A text
cut inside a character panics, and so does running out of numbers.
-/

namespace Irori.Proofs
open Irori

lemma bytes_ascii {l : List Char} (h : ∀ c ∈ l, c.utf8Size = 1) {n : Nat} (hn : n ≤ l.length) :
    Text.bytes n l = some (l.take n) := by
  induction l generalizing n with
  | nil =>
    obtain rfl : n = 0 := by simpa using hn
    rfl
  | cons c l ih =>
    cases n with
    | zero => rfl
    | succ n =>
      have hc := h c List.mem_cons_self
      have hrest := ih (fun d hd => h d (List.mem_cons_of_mem _ hd)) (Nat.le_of_succ_le_succ hn)
      simp [Text.bytes, hc, hrest]

lemma numbered_slug {base : String} (h : SlugBase base) (n : Nat) :
    Text.numbered base n = some (numbered base n) := by
  have hascii : ∀ c ∈ base.toList, c.utf8Size = 1 := fun c hc => isSlugChar_ascii (h.1.2 c hc)
  have hsize : base.utf8ByteSize = base.toList.length := by
    have hlen := utf8ByteSize_ofList base.toList hascii
    rwa [String.ofList_toList] at hlen
  unfold Text.numbered numbered slugCut
  dsimp only
  rw [bytes_ascii hascii (by omega), Option.map_some]
  rcases Nat.le_total base.utf8ByteSize (slugMaxLen - ("_" ++ n.repr).length) with hle | hle
  · rw [Nat.min_eq_left hle, List.take_of_length_le (by omega), List.take_of_length_le (by omega)]
  · rw [Nat.min_eq_right hle]

lemma findFree_slug {base : String} (h : SlugBase base) (taken : String → Bool) (n rounds : Nat) :
    Text.findFree base taken n rounds = findFree base taken n rounds := by
  induction rounds generalizing n with
  | zero => rfl
  | succ rounds ih =>
    unfold Text.findFree findFree
    rw [numbered_slug h, ih]

lemma uniqueIdFor_slug {base fallback : String} (hbase : SlugBase base)
    (hfallback : SlugBase fallback) (taken : String → Bool) :
    Text.uniqueIdFor base fallback taken = uniqueIdFor base fallback taken := by
  unfold Text.uniqueIdFor uniqueIdFor
  dsimp only
  split
  · rw [findFree_slug hfallback]
  · rw [findFree_slug hbase]

lemma findFree_taken {base : String} {taken : String → Bool} {n rounds : Nat}
    (h : ∀ m, n ≤ m → m < n + rounds → taken (numbered base m) = true) :
    findFree base taken n rounds = none := by
  induction rounds generalizing n with
  | zero => rfl
  | succ rounds ih =>
    rw [findFree, if_pos (h n le_rfl (by omega))]
    exact ih fun m hle hlt => h m (by omega) (by omega)

lemma uniqueIdFor_isSome (base fallback : String) {taken : Finset String}
    (hroom : taken.card < idNumbers) : ∃ id, uniqueIdFor base fallback (· ∈ taken) = some id := by
  cases hunique : uniqueIdFor base fallback (· ∈ taken) with
  | some id => exact ⟨id, rfl⟩
  | none =>
    obtain ⟨start, hall⟩ := uniqueIdFor_none hunique
    have hcard := Finset.card_le_card_of_injOn (s := Finset.range idNumbers) (t := taken)
      (fun m => numbered start (2 + m))
      (fun m hm => by
        have hm := Finset.mem_range.mp hm
        exact of_decide_eq_true (hall (2 + m) (by omega) (by omega)))
      (fun m _ n _ heq => by
        have hinj := numbered_injective start heq
        omega)
    rw [Finset.card_range] at hcard
    omega

lemma slugBase_empty : SlugBase "" := by
  refine ⟨⟨Words.separated_nil _, ?_⟩, ?_⟩
  · simp
  · simp

/-- A new id is found, is nobody's, and is a slug. -/
theorem uniqueIdFor_new {what base fallback : String} {taken : Finset String}
    (hbase : base = "" ∨ checkSlug what base = .ok ())
    (hfallback : checkSlug what fallback = .ok ()) (hroom : taken.card < idNumbers) :
    (∃ id, Text.uniqueIdFor base fallback (· ∈ taken) = some id ∧ id ∉ taken ∧
      checkSlug what id = .ok () ∧ id.length ≤ 64) ∧
    ∀ (protocol : ProtocolId) (uniqueId : UniqueId),
      (deviceIdFor protocol uniqueId).text = String.ofList (deviceSlug protocol uniqueId) ∧
        checkSlug "device id" (String.ofList (deviceSlug protocol uniqueId)) = .ok () ∧
          (String.ofList (deviceSlug protocol uniqueId)).length ≤ 64 := by
  refine ⟨?_, fun protocol uniqueId => ⟨rfl, (deviceIdFor protocol uniqueId).wellFormed, ?_⟩⟩
  · have hslug : SlugBase base := by
      rcases hbase with rfl | hbase
      · exact slugBase_empty
      · exact (slugBase_of_checkSlug hbase).1
    obtain ⟨hfallback, hne⟩ := slugBase_of_checkSlug hfallback
    obtain ⟨id, hid⟩ := uniqueIdFor_isSome base fallback hroom
    obtain ⟨hfree, hnew, hnonempty⟩ := uniqueIdFor_free hslug hfallback hne hid
    refine ⟨id, (uniqueIdFor_slug hslug hfallback _).trans hid, of_decide_eq_false hfree,
      checkSlug_of_slugBase hnew hnonempty, ?_⟩
    rw [← String.length_toList]
    exact hnew.2
  · have hlen := length_deviceSlug protocol uniqueId
    rw [slugMaxLen] at hlen
    simpa using hlen

theorem uniqueIdFor_new_lamp :
    (∃ id, Text.uniqueIdFor "lamp" "light" (· ∈ ({"lamp"} : Finset String)) = some id ∧
      id ∉ ({"lamp"} : Finset String) ∧ checkSlug "object id" id = .ok () ∧ id.length ≤ 64) ∧
    ∀ (protocol : ProtocolId) (uniqueId : UniqueId),
      (deviceIdFor protocol uniqueId).text = String.ofList (deviceSlug protocol uniqueId) ∧
        checkSlug "device id" (String.ofList (deviceSlug protocol uniqueId)) = .ok () ∧
          (String.ofList (deviceSlug protocol uniqueId)).length ≤ 64 :=
  uniqueIdFor_new (.inr (by decide)) (by decide) (by simp [idNumbers])

def cutName : String := "kitchen_kitchen_kitchen_kitchen_kitchen_kitchen_kitchen_kitché"

lemma lamp_slug : SlugBase "lamp" ∧ SlugBase "device" :=
  ⟨(slugBase_of_checkSlug (show checkSlug "object id" "lamp" = .ok () by decide)).1,
    (slugBase_of_checkSlug (show checkSlug "object id" "device" = .ok () by decide)).1⟩

/-- A text that isn't a slug can be cut inside a character, and the numbers after a slug can all be
somebody's. -/
theorem not_uniqueIdFor_found :
    Text.uniqueIdFor cutName "device" (· ∈ ({cutName} : Finset String)) = none ∧
      ∃ taken : Finset String, Text.uniqueIdFor "lamp" "device" (· ∈ taken) = none := by
  constructor
  · have hcut : Text.numbered cutName 2 = none := by decide
    have hbase : (if cutName.isEmpty then "device" else cutName) = cutName := by decide
    unfold Text.uniqueIdFor
    dsimp only
    rw [hbase, if_pos (by simp), show idNumbers = (idNumbers - 1) + 1 from rfl, Text.findFree, hcut]
  · refine ⟨insert "lamp" ((Finset.range idNumbers).image fun m => numbered "lamp" (2 + m)), ?_⟩
    rw [uniqueIdFor_slug lamp_slug.1 lamp_slug.2]
    have hbase : (if ("lamp" : String).isEmpty then "device" else "lamp") = "lamp" := by
      decide
    unfold uniqueIdFor
    dsimp only
    rw [hbase, if_pos (by simp)]
    refine findFree_taken fun m hle hlt => decide_eq_true ?_
    refine Finset.mem_insert_of_mem (Finset.mem_image.mpr ⟨m - 2, ?_, ?_⟩)
    · exact Finset.mem_range.mpr (by omega)
    · rw [Nat.add_sub_cancel' hle]

end Irori.Proofs
