import Irori.Matter.Pairing
import Mathlib.GroupTheory.SpecificGroups.Dihedral

/-!
# Mistyped pairing codes

The tables multiply in the dihedral group of ten, after a permutation of the digits that goes with
where one stands. So a check digit is the one that makes the product one, and no digit can be
replaced, and no two different neighbours swapped, without changing that product.
-/

namespace Irori.Matter

open DihedralGroup

local instance (priority := high) decidableAllIn (p : Char → Prop) [DecidablePred p]
    (l : List Char) : Decidable (∀ a ∈ l, p a) := List.decidableBAll p l

local instance (priority := high) decidableAnyIn (p : Char → Prop) [DecidablePred p]
    (l : List Char) : Decidable (∃ a ∈ l, p a) := List.decidableBEx p l

/-- The symmetry of the pentagon a digit stands for. -/
def symmetry (n : Nat) : DihedralGroup 5 := if n < 5 then r n else sr (-n)

/-- What a digit counts as at a place, counted from the end. -/
def weight (at_ : Nat) (c : Char) : DihedralGroup 5 :=
  symmetry (entry P (at_ % 8) (digitOf c))

/-- What the digits from a place on come to, the last one first. -/
def product : Nat → List Char → DihedralGroup 5
  | _, [] => 1
  | at_, c :: digits => weight at_ c * product (at_ + 1) digits

lemma symmetry_injective : ∀ m < 10, ∀ n < 10, symmetry m = symmetry n → m = n := by decide

lemma symmetry_D : ∀ m < 10, ∀ n < 10,
    entry D m n < 10 ∧ symmetry (entry D m n) = symmetry m * symmetry n := by decide

lemma entry_P_lt : ∀ row < 8, ∀ n < 10, entry P row n < 10 := by decide

lemma entry_P_injective : ∀ row < 8, ∀ m < 10, ∀ n < 10, entry P row m = entry P row n → m = n := by
  decide

lemma swapped_ne : ∀ row < 8, ∀ m < 10, ∀ n < 10, m ≠ n →
    symmetry (entry P row m) * symmetry (entry P ((row + 1) % 8) n) ≠
      symmetry (entry P row n) * symmetry (entry P ((row + 1) % 8) m) := by
  decide

lemma digitOf_lt {c : Char} (h : c.isDigit = true) : digitOf c < 10 := by
  have hbound := Char.isDigit_iff_toNat.mp h
  have hzero : '0'.toNat = 48 := rfl
  have hnine : '9'.toNat = 57 := rfl
  unfold digitOf
  omega

lemma digitOf_injective {c d : Char} (hc : c.isDigit = true) (hd : d.isDigit = true)
    (h : digitOf c = digitOf d) : c = d := by
  have hcBound := Char.isDigit_iff_toNat.mp hc
  have hdBound := Char.isDigit_iff_toNat.mp hd
  have hzero : '0'.toNat = 48 := rfl
  unfold digitOf at h
  have hnat : c.toNat = d.toNat := by omega
  exact Char.toNat_inj.mp hnat

lemma weight_injective (at_ : Nat) {c d : Char} (hc : c.isDigit = true) (hd : d.isDigit = true)
    (h : weight at_ c = weight at_ d) : c = d := by
  have hrow : at_ % 8 < 8 := Nat.mod_lt _ (by omega)
  have hentry := symmetry_injective _ (entry_P_lt _ hrow _ (digitOf_lt hc)) _
    (entry_P_lt _ hrow _ (digitOf_lt hd)) h
  exact digitOf_injective hc hd
    (entry_P_injective _ hrow _ (digitOf_lt hc) _ (digitOf_lt hd) hentry)

lemma weight_swap (at_ : Nat) {c d : Char} (hc : c.isDigit = true) (hd : d.isDigit = true)
    (hne : c ≠ d) : weight at_ c * weight (at_ + 1) d ≠ weight at_ d * weight (at_ + 1) c := by
  have hrow : at_ % 8 < 8 := Nat.mod_lt _ (by omega)
  have hnext : (at_ + 1) % 8 = (at_ % 8 + 1) % 8 := by omega
  unfold weight
  rw [hnext]
  exact swapped_ne _ hrow _ (digitOf_lt hc) _ (digitOf_lt hd)
    fun hsame => hne (digitOf_injective hc hd hsame)

lemma product_append (at_ : Nat) (l l' : List Char) :
    product at_ (l ++ l') = product at_ l * product (at_ + l.length) l' := by
  induction l generalizing at_ with
  | nil => rw [List.nil_append, product, one_mul, List.length_nil, Nat.add_zero]
  | cons c l ih =>
    rw [List.cons_append, product, product, ih, mul_assoc, List.length_cons]
    congr 3
    omega

lemma symmetry_foldl (digits : List Char) (hdigits : ∀ c ∈ digits, c.isDigit = true) :
    ∀ (at_ check : Nat), check < 10 →
      (digits.zipIdx at_).foldl
          (fun check x => entry D check (entry P (x.2 % 8) (digitOf x.1))) check < 10 ∧
        symmetry ((digits.zipIdx at_).foldl
          (fun check x => entry D check (entry P (x.2 % 8) (digitOf x.1))) check) =
          symmetry check * product at_ digits := by
  induction digits with
  | nil =>
    intro at_ check hcheck
    exact ⟨hcheck, (mul_one _).symm⟩
  | cons c digits ih =>
    intro at_ check hcheck
    have hc := digitOf_lt (hdigits c List.mem_cons_self)
    obtain ⟨hlt, hmul⟩ := symmetry_D check hcheck _
      (entry_P_lt (at_ % 8) (Nat.mod_lt _ (by omega)) _ hc)
    obtain ⟨hrest, hproduct⟩ := ih (fun d hd => hdigits d (List.mem_cons_of_mem c hd)) (at_ + 1) _ hlt
    rw [List.zipIdx_cons, List.foldl_cons]
    refine ⟨hrest, hproduct.trans ?_⟩
    rw [hmul, mul_assoc]
    rfl

theorem verhoeffValid_iff {digits : List Char} (hdigits : ∀ c ∈ digits, c.isDigit = true) :
    verhoeffValid digits = true ↔ product 0 digits.reverse = 1 := by
  obtain ⟨hlt, hproduct⟩ := symmetry_foldl digits.reverse
    (fun c hc => hdigits c (List.mem_reverse.mp hc)) 0 0 (by omega)
  have hone : symmetry 0 = 1 := rfl
  rw [hone, one_mul] at hproduct
  unfold verhoeffValid
  dsimp only
  rw [decide_eq_true_iff, ← hproduct]
  constructor
  · intro hzero
    rw [hzero]
    exact hone
  · intro hsame
    exact symmetry_injective _ hlt 0 (by omega) (hsame.trans hone.symm)

/-- The digit that undoes what the others come to. -/
def checkDigit (body : List Char) : Char :=
  (("0123456789".toList.find? fun c => verhoeffValid (body ++ [c])).getD '0')

lemma weight_last : ∀ g : DihedralGroup 5, ∃ c ∈ "0123456789".toList, weight 0 c * g = 1 := by
  decide

lemma product_snoc (body : List Char) (c : Char) :
    product 0 (body ++ [c]).reverse = weight 0 c * product 1 body.reverse := by
  rw [List.reverse_append, List.reverse_singleton, List.singleton_append, product]

lemma valid_snoc_iff {body : List Char} (hbody : ∀ c ∈ body, c.isDigit = true) {c : Char}
    (hc : c.isDigit = true) :
    verhoeffValid (body ++ [c]) = true ↔ weight 0 c * product 1 body.reverse = 1 := by
  rw [verhoeffValid_iff, product_snoc]
  intro d hd
  rcases List.mem_append.mp hd with hd | hd
  · exact hbody d hd
  · exact List.mem_singleton.mp hd ▸ hc

lemma valid_iff_checkDigit {body : List Char} (hbody : ∀ c ∈ body, c.isDigit = true) :
    (checkDigit body).isDigit = true ∧ ∀ c : Char, c.isDigit = true →
      (verhoeffValid (body ++ [c]) = true ↔ c = checkDigit body) := by
  obtain ⟨d, hd, hlast⟩ := weight_last (product 1 body.reverse)
  have hall : ∀ c ∈ "0123456789".toList, c.isDigit = true := by decide
  have hvalid := (valid_snoc_iff hbody (hall d hd)).mpr hlast
  obtain ⟨found, hfound⟩ := Option.isSome_iff_exists.mp
    (List.find?_isSome (p := fun c => verhoeffValid (body ++ [c])) |>.mpr ⟨d, hd, hvalid⟩)
  have hcheck : checkDigit body = found := by
    rw [checkDigit, hfound, Option.getD_some]
  have hdigit := hall found (List.mem_of_find?_eq_some hfound)
  have hfoundValid : verhoeffValid (body ++ [found]) = true :=
    List.find?_some (p := fun c => verhoeffValid (body ++ [c])) hfound
  rw [hcheck]
  refine ⟨hdigit, fun c hc => ⟨fun h => ?_, fun h => h ▸ hfoundValid⟩⟩
  have hmine := (valid_snoc_iff hbody hc).mp h
  have hits := (valid_snoc_iff hbody hdigit).mp hfoundValid
  exact weight_injective 0 hc hdigit (mul_right_cancel (hmine.trans hits.symm))

lemma product_around (before after middle : List Char) :
    product 0 (before ++ middle ++ after).reverse =
      product 0 after.reverse * (product after.length middle.reverse *
        product (after.length + middle.length) before.reverse) := by
  rw [List.reverse_append, List.reverse_append, product_append, product_append,
    List.length_reverse, List.length_reverse, Nat.zero_add]

/-- A part of a code written otherwise leaves it one only if it comes to the same. -/
lemma middle_eq {before after middle middle' : List Char} (hlength : middle.length = middle'.length)
    (hdigits : ∀ c ∈ before ++ middle ++ after, c.isDigit = true)
    (hdigits' : ∀ c ∈ before ++ middle' ++ after, c.isDigit = true)
    (h : verhoeffValid (before ++ middle ++ after) = true)
    (h' : verhoeffValid (before ++ middle' ++ after) = true) :
    product after.length middle.reverse = product after.length middle'.reverse := by
  rw [verhoeffValid_iff hdigits, product_around] at h
  rw [verhoeffValid_iff hdigits', product_around, ← hlength] at h'
  exact mul_right_cancel (mul_left_cancel (h.trans h'.symm))

lemma replaced_refused {before after : List Char} {c d : Char}
    (hdigits : ∀ x ∈ before ++ [c] ++ after, x.isDigit = true) (hd : d.isDigit = true) (hne : c ≠ d)
    (h : verhoeffValid (before ++ [c] ++ after) = true) :
    verhoeffValid (before ++ [d] ++ after) = false := by
  rw [Bool.eq_false_iff]
  intro h'
  have hdigits' : ∀ x ∈ before ++ [d] ++ after, x.isDigit = true := by
    simp only [List.mem_append, List.mem_singleton] at hdigits ⊢
    rintro x ((hx | rfl) | hx)
    · exact hdigits x (.inl (.inl hx))
    · exact hd
    · exact hdigits x (.inr hx)
  have hsame := middle_eq (show [c].length = [d].length from rfl) hdigits hdigits' h h'
  simp only [List.reverse_singleton, product, mul_one] at hsame
  exact hne (weight_injective _ (hdigits c (by simp)) hd hsame)

lemma swapped_refused {before after : List Char} {c d : Char}
    (hdigits : ∀ x ∈ before ++ [c, d] ++ after, x.isDigit = true) (hne : c ≠ d)
    (h : verhoeffValid (before ++ [c, d] ++ after) = true) :
    verhoeffValid (before ++ [d, c] ++ after) = false := by
  rw [Bool.eq_false_iff]
  intro h'
  have hdigits' : ∀ x ∈ before ++ [d, c] ++ after, x.isDigit = true := by
    intro x hx
    refine hdigits x ?_
    simp only [List.mem_append, List.mem_cons] at hx ⊢
    tauto
  have hsame := middle_eq (show [c, d].length = [d, c].length from rfl) hdigits hdigits' h h'
  simp only [List.reverse_cons, List.reverse_nil, List.nil_append, List.singleton_append, product,
    mul_one] at hsame
  exact weight_swap _ (hdigits d (by simp)) (hdigits c (by simp)) (Ne.symm hne) hsame

/-- A code as someone types it: digits, with spaces, dots and dashes anywhere. -/
def Typed (input : String) : Prop :=
  ∀ c ∈ input.toList, c.isDigit = true ∨ c = ' ' ∨ c = '-' ∨ c = '.'

def typedDigits (input : String) : List Char := input.toList.filter Char.isDigit

lemma filter_dropWhile {p q : Char → Bool} (l : List Char) (h : ∀ c ∈ l, q c = true → p c = false) :
    (l.dropWhile q).filter p = l.filter p := by
  induction l with
  | nil => rfl
  | cons c l ih =>
    rw [List.dropWhile_cons]
    split
    · next hq =>
      rw [ih fun d hd => h d (List.mem_cons_of_mem c hd),
        List.filter_cons_of_neg (by simp [h c List.mem_cons_self hq])]
    · rfl

lemma filter_trim {p : Char → Bool} (input : String)
    (h : ∀ c ∈ input.toList, isWhitespace c = true → p c = false) :
    (Core.trim input).toList.filter p = input.toList.filter p := by
  rw [Core.trim, String.toList_ofList, List.rdropWhile, List.filter_reverse, filter_dropWhile,
    ← List.filter_reverse, List.reverse_reverse, filter_dropWhile _ h]
  intro c hc
  exact h c (List.dropWhile_subset _ (List.mem_reverse.mp hc))

lemma not_space_of_isDigit {c : Char} (hc : c.isDigit = true) : isWhitespace c = false := by
  have hbound := Char.isDigit_iff_toNat.mp hc
  have hzero : '0'.toNat = 48 := rfl
  have hnine : '9'.toNat = 57 := rfl
  unfold isWhitespace
  simp
  omega

lemma typed_filter {input : String} (htyped : Typed input) :
    ((Core.trim input).toList.filter fun c => !(c = ' ' || c = '-' || c = '.')) =
      typedDigits input := by
  have hsub : ∀ c ∈ (Core.trim input).toList, c ∈ input.toList := by
    intro c hc
    rw [Core.trim, String.toList_ofList, List.rdropWhile, List.mem_reverse] at hc
    exact List.dropWhile_subset _ (List.mem_reverse.mp (List.dropWhile_subset _ hc))
  rw [typedDigits, ← filter_trim input]
  · refine List.filter_congr fun c hc => ?_
    rcases htyped c (hsub c hc) with hdigit | rfl | rfl | rfl
    · have hne : c ≠ ' ' ∧ c ≠ '-' ∧ c ≠ '.' := by
        refine ⟨?_, ?_, ?_⟩ <;> rintro rfl <;> simp at hdigit
      simp [hne, hdigit]
    · decide
    · decide
    · decide
  · intro c _ hspace
    rw [Bool.eq_false_iff]
    intro hdigit
    rw [not_space_of_isDigit hdigit] at hspace
    cases hspace

lemma typed_no_qr {input : String} (htyped : Typed input) :
    qrPayload (Core.trim input).toList = none := by
  unfold qrPayload
  split
  · next m t payload heq =>
    refine if_neg fun hmt => ?_
    have hm : m ∈ input.toList := by
      have hmem : m ∈ (Core.trim input).toList := by rw [heq]; exact List.mem_cons_self
      rw [Core.trim, String.toList_ofList, List.rdropWhile, List.mem_reverse] at hmem
      exact List.dropWhile_subset _ (List.mem_reverse.mp (List.dropWhile_subset _ hmem))
    have htype := htyped m hm
    rcases hmt.1 with rfl | rfl <;> simp at htype
  · rfl

lemma pairingCode_typed {input : String} (htyped : Typed input) (code : String) :
    pairingCode input = .ok code ↔
      code = String.ofList (typedDigits input) ∧
        ((typedDigits input).length = 11 ∨ (typedDigits input).length = 21) ∧
        verhoeffValid (typedDigits input) = true := by
  have hall : (typedDigits input).all Char.isDigit = true :=
    List.all_eq_true.mpr fun c hc => (List.mem_filter.mp hc).2
  unfold pairingCode
  dsimp only
  rw [typed_no_qr htyped]
  dsimp only
  rw [typed_filter htyped, hall]
  by_cases hfine : ((typedDigits input).length = 11 ∨ (typedDigits input).length = 21) ∧
      verhoeffValid (typedDigits input) = true
  · rw [if_pos (by simpa using hfine), Except.ok.injEq]
    exact ⟨fun h => ⟨h.symm, hfine⟩, fun h => h.1.symm⟩
  · rw [if_neg (by simpa using hfine)]
    exact ⟨fun h => by simp at h, fun h => absurd h.2 hfine⟩

def EndsInCheckDigit (digits : List Char) : Prop := ∃ body, digits = body ++ [checkDigit body]

lemma endsInCheckDigit_iff {digits : List Char} (hdigits : ∀ c ∈ digits, c.isDigit = true)
    (hne : digits ≠ []) : EndsInCheckDigit digits ↔ verhoeffValid digits = true := by
  constructor
  · rintro ⟨body, rfl⟩
    have hbody : ∀ c ∈ body, c.isDigit = true := fun c hc => hdigits c (List.mem_append_left _ hc)
    obtain ⟨hdigit, hvalid⟩ := valid_iff_checkDigit hbody
    exact (hvalid _ hdigit).mpr rfl
  · intro h
    obtain ⟨body, c, rfl⟩ := (List.eq_nil_or_concat' digits).resolve_left hne
    have hbody : ∀ c ∈ body, c.isDigit = true := fun c hc => hdigits c (List.mem_append_left _ hc)
    have hc := ((valid_iff_checkDigit hbody).2 c (hdigits c (by simp))).mp h
    exact ⟨body, by rw [← hc]⟩

/-- A mistyped code is refused: exactly one digit ends a run of them, no digit of a good one can be
replaced and no two different neighbours swapped; and a typed code is taken exactly where it ends in
its check digit. -/
theorem mistyped_refused :
    (∀ digits : List Char, (∀ c ∈ digits, c.isDigit = true) →
      ∃! c : Char, c.isDigit = true ∧ verhoeffValid (digits ++ [c]) = true) ∧
    (∀ (before after : List Char) (c d : Char),
      (∀ x ∈ before ++ [c] ++ after, x.isDigit = true) → d.isDigit = true → c ≠ d →
      verhoeffValid (before ++ [c] ++ after) = true →
        verhoeffValid (before ++ [d] ++ after) = false) ∧
    (∀ (before after : List Char) (c d : Char),
      (∀ x ∈ before ++ [c, d] ++ after, x.isDigit = true) → c ≠ d →
      verhoeffValid (before ++ [c, d] ++ after) = true →
        verhoeffValid (before ++ [d, c] ++ after) = false) ∧
    ∀ (input : String), Typed input → ∀ code : String,
      pairingCode input = .ok code ↔ code = String.ofList (typedDigits input) ∧
        ((typedDigits input).length = 11 ∨ (typedDigits input).length = 21) ∧
        EndsInCheckDigit (typedDigits input) := by
  refine ⟨fun digits hdigits => ?_, fun before after c d hdigits hd hne h =>
    replaced_refused hdigits hd hne h, fun before after c d hdigits hne h =>
    swapped_refused hdigits hne h, fun input htyped code => ?_⟩
  · obtain ⟨hdigit, hvalid⟩ := valid_iff_checkDigit hdigits
    exact ⟨checkDigit digits, ⟨hdigit, (hvalid _ hdigit).mpr rfl⟩,
      fun c hc => (hvalid c hc.1).mp hc.2⟩
  · have hdigits : ∀ c ∈ typedDigits input, c.isDigit = true :=
      fun c hc => (List.mem_filter.mp hc).2
    rw [pairingCode_typed htyped]
    refine and_congr_right fun _ => and_congr_right fun hlength => ?_
    refine (endsInCheckDigit_iff hdigits fun hnil => ?_).symm
    simp [hnil] at hlength

end Irori.Matter
