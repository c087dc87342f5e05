import Irori.Lib.Map

/-!
# Tables with an index

A table whose rows carry a key of their own, and the index that finds a row by it. The index is the
exact inverse of the rows' keys, and stays so as rows come, go and change.
-/

namespace Irori.Map

variable {α β γ : Type} [LinearOrder α] [LinearOrder γ]

lemma get_insert_some {m : Map α β} {a k : α} {v w : β}
    (h : (m.insert a v)[k]? = some w) : (a = k ∧ v = w) ∨ (a ≠ k ∧ m[k]? = some w) := by
  rw [get_insert] at h
  split at h
  · next heq => exact .inl ⟨heq, Option.some.inj h⟩
  · next hne => exact .inr ⟨hne, h⟩

omit [LinearOrder γ] in
lemma get_insert_self (m : Map α β) (k : α) (v : β) : (m.insert k v)[k]? = some v := by
  rw [get_insert, if_pos rfl]

lemma get_erase_some {m : Map α β} {a k : α} {w : β}
    (h : (m.erase a)[k]? = some w) : a ≠ k ∧ m[k]? = some w := by
  rw [get_erase] at h
  split at h
  · cases h
  · next hne => exact ⟨hne, h⟩

lemma exists_insert {m : Map α β} {a k : α} (v : β)
    (h : ∃ w : β, m[k]? = some w) : ∃ w : β, (m.insert a v)[k]? = some w := by
  rw [get_insert]
  split
  · exact ⟨v, rfl⟩
  · exact h

omit [LinearOrder γ] in
lemma size_erase_add_one {m : Map α β} {k : α} {v : β} (h : m[k]? = some v) :
    (m.erase k).size + 1 = m.size := by
  have hlen := (toList_erase_perm m k v h).length_eq
  rw [List.length_cons, Std.ExtTreeMap.length_toList, Std.ExtTreeMap.length_toList] at hlen
  exact hlen.symm

section

variable {P : β → Prop} {m m' m'' : Map α β} {k : α} {v w : β}

/-- Two maps have the same rows among those with a property. -/
def SameWhere (P : β → Prop) (m m' : Map α β) : Prop :=
  ∀ (k : α) (v : β), P v → (m'[k]? = some v ↔ m[k]? = some v)

omit [LinearOrder γ] in
lemma SameWhere.refl (P : β → Prop) (m : Map α β) : SameWhere P m m := fun _ _ _ => Iff.rfl

omit [LinearOrder γ] in
lemma SameWhere.trans (h : SameWhere P m m') (h' : SameWhere P m' m'') : SameWhere P m m'' :=
  fun k v hv => (h' k v hv).trans (h k v hv)

omit [LinearOrder γ] in
lemma SameWhere.insert (hv : ¬ P v) (hold : ∀ w : β, m[k]? = some w → ¬ P w) :
    SameWhere P m (m.insert k v) := by
  intro j u hu
  rw [get_insert]
  split
  · next heq =>
    constructor
    · intro h
      rw [Option.some.injEq] at h
      exact absurd (h ▸ hu) hv
    · intro h
      exact absurd hu (hold u (heq ▸ h))
  · rfl

omit [LinearOrder γ] in
lemma SameWhere.erase (hold : ∀ w : β, m[k]? = some w → ¬ P w) : SameWhere P m (m.erase k) := by
  intro j u hu
  rw [get_erase]
  split
  · next heq =>
    constructor
    · intro h
      cases h
    · intro h
      exact absurd hu (hold u (heq ▸ h))
  · rfl

end

def Indexed (key : β → γ) (rows : Map α β) (index : Map γ α) : Prop :=
  ∀ (k : γ) (a : α), index[k]? = some a ↔ ∃ b : β, rows[a]? = some b ∧ key b = k

section

variable {key : β → γ} {rows rows' : Map α β} {index : Map γ α} {a a' : α} {b b' : β} {k : γ}

lemma indexed_empty : Indexed key (∅ : Map α β) (∅ : Map γ α) := by
  intro k a
  simp

lemma Indexed.found (h : Indexed key rows index) (hrow : rows[a]? = some b) :
    index[key b]? = some a :=
  (h _ _).mpr ⟨b, hrow, rfl⟩

lemma Indexed.row (h : Indexed key rows index) (hindex : index[k]? = some a) :
    ∃ b : β, rows[a]? = some b ∧ key b = k :=
  (h _ _).mp hindex

lemma Indexed.unique (h : Indexed key rows index) (hrow : rows[a]? = some b)
    (hrow' : rows[a']? = some b') (hkey : key b = key b') : a = a' := by
  have hfound := h.found hrow
  rw [hkey, h.found hrow'] at hfound
  exact (Option.some.inj hfound).symm

lemma Indexed.congr (h : Indexed key rows index)
    (hkeys : ∀ a : α, (rows'[a]?).map key = (rows[a]?).map key) : Indexed key rows' index := by
  intro k a
  rw [h k a]
  have hmap : ∀ rows : Map α β, (∃ b : β, rows[a]? = some b ∧ key b = k) ↔
      (rows[a]?).map key = some k := fun rows => by simp
  rw [hmap, hmap, hkeys]

lemma Indexed.update (h : Indexed key rows index) (hrow : rows[a]? = some b)
    (hkey : key b' = key b) : Indexed key (rows.insert a b') index := by
  refine h.congr fun i => ?_
  rw [get_insert]
  split
  · next heq => rw [← heq, hrow, Option.map_some, Option.map_some, hkey]
  · rfl

lemma Indexed.insert (h : Indexed key rows index) (hrow : rows[a]? = none)
    (hindex : index[key b]? = none) : Indexed key (rows.insert a b) (index.insert (key b) a) := by
  intro k i
  rw [get_insert, get_insert]
  by_cases hk : key b = k
  · subst hk
    rw [if_pos rfl]
    constructor
    · intro hi
      rw [Option.some.injEq] at hi
      exact ⟨b, by rw [if_pos hi], rfl⟩
    · rintro ⟨c, hc, hkey⟩
      split at hc
      · next heq => rw [heq]
      · have hfound := h.found hc
        rw [hkey, hindex] at hfound
        cases hfound
  · rw [if_neg hk, h k i]
    constructor
    · rintro ⟨c, hc, hkey⟩
      refine ⟨c, ?_, hkey⟩
      rw [if_neg, hc]
      rintro rfl
      rw [hrow] at hc
      cases hc
    · rintro ⟨c, hc, hkey⟩
      split at hc
      · rw [Option.some.injEq] at hc
        exact absurd (hc ▸ hkey) hk
      · exact ⟨c, hc, hkey⟩

lemma Indexed.erase (h : Indexed key rows index) (hindex : index[k]? = some a) :
    Indexed key (rows.erase a) (index.erase k) := by
  obtain ⟨b, hb, hkb⟩ := h.row hindex
  intro l i
  rw [get_erase, get_erase]
  by_cases hl : k = l
  · subst hl
    rw [if_pos rfl]
    constructor
    · intro hi
      cases hi
    · rintro ⟨c, hc, hkey⟩
      split at hc
      · cases hc
      · next hne => exact absurd (h.unique hb hc (hkb.trans hkey.symm)) hne
  · rw [if_neg hl, h l i]
    constructor
    · rintro ⟨c, hc, hkey⟩
      refine ⟨c, ?_, hkey⟩
      rw [if_neg, hc]
      rintro rfl
      rw [hb, Option.some.injEq] at hc
      exact hl (hkb.symm.trans (hc ▸ hkey))
    · rintro ⟨c, hc, hkey⟩
      split at hc
      · cases hc
      · exact ⟨c, hc, hkey⟩

end

end Irori.Map
