import Mathlib.Tactic
import Mathlib.Data.Prod.Lex
import Mathlib.Data.List.Sort
import Mathlib.Data.String.Basic
import Std.Data.ExtTreeMap
import Std.Data.ExtTreeSet

/-!
# Ordered maps

An ordered map is the extensional tree map of the standard library over a linear order:
two maps with the same entries are equal, and iteration is in key order. This file has
the facts about entries and totals that the standard library leaves out.
-/

namespace Irori

abbrev Map (α β : Type) [LinearOrder α] := Std.ExtTreeMap α β compare

abbrev OrdSet (α : Type) [LinearOrder α] := Std.ExtTreeSet α compare

namespace Map

variable {α β : Type} [LinearOrder α]

instance transCmp : Std.TransCmp (compare : α → α → Ordering) := inferInstance

def lastValue? (m : Map α β) : Option β :=
  m.toList.getLast?.map Prod.snd

def vals (m : Map α β) : List β :=
  m.toList.map Prod.snd

lemma mem_vals {m : Map α β} {v : β} : v ∈ vals m ↔ ∃ k : α, m[k]? = some v := by
  simp [vals]

lemma get_insert (m : Map α β) (a k : α) (v : β) :
    (m.insert a v)[k]? = if a = k then some v else m[k]? := by
  simp [Std.ExtTreeMap.getElem?_insert]

lemma get_erase (m : Map α β) (a k : α) :
    (m.erase a)[k]? = if a = k then none else m[k]? := by
  simp [Std.ExtTreeMap.getElem?_erase]

lemma get_of_lastValue {m : Map α β} {v : β} (h : lastValue? m = some v) :
    ∃ k : α, m[k]? = some v := by
  simp only [lastValue?, Option.map_eq_some_iff] at h
  obtain ⟨⟨k, w⟩, hlast, rfl⟩ := h
  exact ⟨k, Std.ExtTreeMap.mem_toList_iff_getElem?_eq_some.mp (List.mem_of_getLast? hlast)⟩

lemma toList_nodup (m : Map α β) : m.toList.Nodup := by
  have h : (m.toList.map Prod.fst).Nodup := by
    rw [Std.ExtTreeMap.map_fst_toList_eq_keys]
    exact (Std.ExtTreeMap.distinct_keys (t := m)).imp (fun h => by simpa using h)
  exact List.Nodup.of_map _ h

lemma toList_erase_perm (m : Map α β) (k : α) (v : β) (h : m[k]? = some v) :
    m.toList.Perm ((k, v) :: (m.erase k).toList) := by
  apply (List.perm_ext_iff_of_nodup (toList_nodup _) _).mpr
  · rintro ⟨a, b⟩
    simp only [Std.ExtTreeMap.mem_toList_iff_getElem?_eq_some, get_erase, List.mem_cons,
      Prod.mk.injEq]
    by_cases hk : k = a
    · subst hk
      simp [h, eq_comm]
    · simp [hk, Ne.symm hk]
  · refine List.nodup_cons.mpr ⟨?_, toList_nodup _⟩
    simp [Std.ExtTreeMap.mem_toList_iff_getElem?_eq_some]

/-- A quantity summed over the values of a map. -/
def total (f : β → Nat) (m : Map α β) : Nat := (m.toList.map fun x => f x.2).sum

lemma total_eq_sum (f : β → Nat) (m : Map α β) :
    total f m = ∑ k ∈ m.keys.toFinset, ((m[k]?).map f).getD 0 := by
  have hnodup : m.keys.Nodup := (Std.ExtTreeMap.distinct_keys (t := m)).imp fun h => by simpa using h
  rw [List.sum_toFinset _ hnodup, total, ← Std.ExtTreeMap.map_fst_toList_eq_keys, List.map_map]
  refine congrArg List.sum (List.map_congr_left fun x hx => ?_)
  have hget := Std.ExtTreeMap.mem_toList_iff_getElem?_eq_some.mp hx
  simp [hget]

lemma total_congr_getD {γ : Type} {f : β → Nat} {g : γ → Nat} {m : Map α β} {m' : Map α γ}
    (h : ∀ k : α, ((m'[k]?).map g).getD 0 = ((m[k]?).map f).getD 0) : total g m' = total f m := by
  have hwhole : ∀ {δ : Type} (f : δ → Nat) (m : Map α δ) {keys : Finset α},
      m.keys.toFinset ⊆ keys → total f m = ∑ k ∈ keys, ((m[k]?).map f).getD 0 := by
    intro δ f m keys hkeys
    rw [total_eq_sum]
    refine Finset.sum_subset hkeys fun k _ hk => ?_
    rw [List.mem_toFinset, Std.ExtTreeMap.mem_keys] at hk
    rw [Std.ExtTreeMap.getElem?_eq_none hk]
    rfl
  have hnew : m'.keys.toFinset ⊆ m'.keys.toFinset ∪ m.keys.toFinset := Finset.subset_union_left
  rw [hwhole g m' hnew, hwhole f m Finset.subset_union_right]
  exact Finset.sum_congr rfl fun k _ => h k

lemma total_congr {γ : Type} {f : β → Nat} {g : γ → Nat} {m : Map α β} {m' : Map α γ}
    (h : ∀ k : α, (m'[k]?).map g = (m[k]?).map f) : total g m' = total f m :=
  total_congr_getD fun k => by rw [h]

lemma total_erase (f : β → Nat) (m : Map α β) (k : α) :
    total f m = ((m[k]?).map f).getD 0 + total f (m.erase k) := by
  cases h : m[k]? with
  | none =>
    have hsame : total f (m.erase k) = total f m := total_congr fun i => by
      rw [get_erase]
      split
      · next hi => rw [← hi, h]
      · rfl
    simp [hsame]
  | some v =>
    have hperm := ((toList_erase_perm m k v h).map fun x => f x.2).sum_eq
    rw [total, hperm]
    simp [total]

lemma total_insert (f : β → Nat) (m : Map α β) (k : α) (v : β) :
    total f (m.insert k v) + ((m[k]?).map f).getD 0 = total f m + f v := by
  have herase : total f ((m.insert k v).erase k) = total f (m.erase k) := total_congr fun i => by
    rw [get_erase, get_erase, get_insert]
    split <;> rfl
  have hinsert := total_erase f (m.insert k v) k
  have hold := total_erase f m k
  rw [get_insert, if_pos rfl, herase] at hinsert
  simp only [Option.map_some, Option.getD_some] at hinsert
  omega

end Map

end Irori
