import Mathlib.Logic.Function.Basic
import Mathlib.Tactic

/-!
# Files and their names

A directory gives names to files. A file opened is written through its number, whatever name it has
by then, so two writers of one file write into each other's text. This file has what each operation
leaves under each name.
-/

namespace Irori

structure Inode where
  text : List Char
  modified : Nat
  deriving DecidableEq

/-- Files by number, and the names they go by. -/
structure Disk (ν : Type) where
  inodes : Nat → Inode
  names : ν → Option Nat
  next : Nat

namespace Disk

variable {ν : Type} [DecidableEq ν] (d : Disk ν)

def content (n : ν) : Option Inode := (d.names n).map d.inodes

/-- A text with a piece of it written over, from some place on. A gap is filled with zeros. -/
def splice (text : List Char) (offset : Nat) (piece : List Char) : List Char :=
  (text ++ List.replicate (offset - text.length) (Char.ofNat 0)).take offset ++ piece ++
    text.drop (offset + piece.length)

def opened (n : ν) : Nat := (d.names n).getD d.next

/-- Opens a name, emptying the file if there is one. -/
def create (n : ν) (time : Nat) : Disk ν :=
  { inodes := Function.update d.inodes (d.opened n) ⟨[], time⟩
    names := Function.update d.names n (some (d.opened n))
    next := if (d.names n).isSome then d.next else d.next + 1 }

def write (i offset : Nat) (piece : List Char) (time : Nat) : Disk ν :=
  { d with inodes := Function.update d.inodes i ⟨splice (d.inodes i).text offset piece, time⟩ }

def rename (a b : ν) : Disk ν :=
  { d with names := Function.update (Function.update d.names b (d.names a)) a none }

def remove (n : ν) : Disk ν := { d with names := Function.update d.names n none }

def replace (n : ν) (inode : Inode) : Disk ν :=
  { inodes := Function.update d.inodes d.next inode
    names := Function.update d.names n (some d.next)
    next := d.next + 1 }

/-- No file has two names, and the next number is new. -/
structure Whole : Prop where
  lt : ∀ n i, d.names n = some i → i < d.next
  unique : ∀ m n i, d.names m = some i → d.names n = some i → m = n

variable {d} {m n a b : ν} {i offset time : Nat} {piece : List Char} {inode : Inode}

lemma names_create_self : (d.create n time).names n = some (d.opened n) := by
  simp [create]

lemma names_create_of_ne (hne : m ≠ n) : (d.create n time).names m = d.names m := by
  simp [create, Function.update_of_ne hne]

lemma names_replace_self : (d.replace n inode).names n = some d.next := by
  simp [replace]

lemma names_replace_of_ne (hne : m ≠ n) : (d.replace n inode).names m = d.names m := by
  simp [replace, Function.update_of_ne hne]

lemma names_rename_source : (d.rename a b).names a = none := by
  simp [rename]

lemma names_rename_target (hne : b ≠ a) : (d.rename a b).names b = d.names a := by
  simp [rename, Function.update_of_ne hne]

lemma names_rename_of_ne (ha : m ≠ a) (hb : m ≠ b) : (d.rename a b).names m = d.names m := by
  simp [rename, Function.update_of_ne ha, Function.update_of_ne hb]

lemma names_remove_self : (d.remove n).names n = none := by
  simp [remove]

lemma names_remove_of_ne (hne : m ≠ n) : (d.remove n).names m = d.names m := by
  simp [remove, Function.update_of_ne hne]

omit [DecidableEq ν] in
lemma Whole.opened_ne (h : d.Whole) (hne : m ≠ n) (hm : d.names m = some i) : i ≠ d.opened n := by
  intro heq
  cases hn : d.names n with
  | none =>
    have hlt := h.lt m i hm
    simp only [opened, hn, Option.getD_none] at heq
    omega
  | some j =>
    simp only [opened, hn, Option.getD_some] at heq
    exact hne (h.unique m n i hm (heq ▸ hn))

omit [DecidableEq ν] in
lemma Whole.name {d' : Disk ν} {j : Nat} (h : d.Whole) (hself : d'.names n = some j)
    (hother : ∀ k, k ≠ n → d'.names k = d.names k)
    (hnew : ∀ k i, k ≠ n → d.names k = some i → i ≠ j) (hlt : j < d'.next)
    (hle : d.next ≤ d'.next) : d'.Whole := by
  constructor
  · intro k i hk
    by_cases hkn : k = n
    · subst hkn
      rw [hself] at hk
      exact Option.some.inj hk ▸ hlt
    · rw [hother k hkn] at hk
      exact lt_of_lt_of_le (h.lt k i hk) hle
  · intro k l i hk hl
    by_cases hkn : k = n <;> by_cases hln : l = n
    · rw [hkn, hln]
    · subst hkn
      rw [hself] at hk
      rw [hother l hln] at hl
      exact absurd (Option.some.inj hk).symm (hnew l i hln hl)
    · subst hln
      rw [hself] at hl
      rw [hother k hkn] at hk
      exact absurd (Option.some.inj hl).symm (hnew k i hkn hk)
    · rw [hother k hkn] at hk
      rw [hother l hln] at hl
      exact h.unique k l i hk hl

lemma Whole.create (h : d.Whole) (n : ν) (time : Nat) : (d.create n time).Whole := by
  refine h.name names_create_self (fun k hk => names_create_of_ne hk)
    (fun k i hk hi => h.opened_ne hk hi) ?_ ?_
  · cases hn : d.names n with
    | none => simp [Disk.create, opened, hn]
    | some i => simpa [Disk.create, opened, hn] using h.lt n i hn
  · simp only [Disk.create]
    split <;> omega

lemma content_create_of_ne (h : d.Whole) (hne : m ≠ n) :
    (d.create n time).content m = d.content m := by
  rw [content, content, names_create_of_ne hne]
  cases hm : d.names m with
  | none => rfl
  | some i => simp [create, Function.update_of_ne (h.opened_ne hne hm)]

omit [DecidableEq ν] in
lemma Whole.write (h : d.Whole) (i offset : Nat) (piece : List Char) (time : Nat) :
    (d.write i offset piece time).Whole := ⟨h.lt, h.unique⟩

omit [DecidableEq ν] in
lemma content_write_of_ne (h : d.Whole) (hn : d.names n = some i) (hne : m ≠ n) :
    (d.write i offset piece time).content m = d.content m := by
  rw [content, content, show (d.write i offset piece time).names m = d.names m from rfl]
  cases hm : d.names m with
  | none => rfl
  | some j =>
    have hj : j ≠ i := fun heq => hne (h.unique m n j hm (heq ▸ hn))
    simp [write, Function.update_of_ne hj]

lemma splice_end (text piece : List Char) : splice text text.length piece = text ++ piece := by
  simp [splice]

lemma Whole.rename (h : d.Whole) (a b : ν) : (d.rename a b).Whole := by
  have hof : ∀ k i, (d.rename a b).names k = some i →
      k ≠ a ∧ (k = b ∧ d.names a = some i ∨ k ≠ b ∧ d.names k = some i) := by
    intro k i hk
    by_cases hka : k = a
    · subst hka
      rw [names_rename_source] at hk
      cases hk
    · by_cases hkb : k = b
      · subst hkb
        rw [names_rename_target hka] at hk
        exact ⟨hka, Or.inl ⟨rfl, hk⟩⟩
      · rw [names_rename_of_ne hka hkb] at hk
        exact ⟨hka, Or.inr ⟨hkb, hk⟩⟩
  constructor
  · intro k i hk
    obtain ⟨-, ⟨-, hi⟩ | ⟨-, hi⟩⟩ := hof k i hk
    · exact h.lt a i hi
    · exact h.lt k i hi
  · intro k l i hk hl
    obtain ⟨hka, ⟨hkb, hi⟩ | ⟨-, hi⟩⟩ := hof k i hk <;>
      obtain ⟨hla, ⟨hlb, hj⟩ | ⟨-, hj⟩⟩ := hof l i hl
    · rw [hkb, hlb]
    · exact absurd (h.unique l a i hj hi) hla
    · exact absurd (h.unique k a i hi hj) hka
    · exact h.unique k l i hi hj

lemma content_rename_target (hne : b ≠ a) : (d.rename a b).content b = d.content a := by
  rw [content, content, names_rename_target hne]
  rfl

lemma content_rename_of_ne (ha : m ≠ a) (hb : m ≠ b) :
    (d.rename a b).content m = d.content m := by
  rw [content, content, names_rename_of_ne ha hb]
  rfl

lemma Whole.remove (h : d.Whole) (n : ν) : (d.remove n).Whole := by
  have hof : ∀ k i, (d.remove n).names k = some i → d.names k = some i := by
    intro k i hk
    by_cases hkn : k = n
    · subst hkn
      rw [names_remove_self] at hk
      cases hk
    · rwa [names_remove_of_ne hkn] at hk
  exact ⟨fun k i hk => h.lt k i (hof k i hk),
    fun k l i hk hl => h.unique k l i (hof k i hk) (hof l i hl)⟩

lemma content_remove_of_ne (hne : m ≠ n) : (d.remove n).content m = d.content m := by
  rw [content, content, names_remove_of_ne hne]
  rfl

lemma Whole.replace (h : d.Whole) (n : ν) (inode : Inode) : (d.replace n inode).Whole :=
  h.name names_replace_self (fun _ hk => names_replace_of_ne hk)
    (fun _ _ _ hi => Nat.ne_of_lt (h.lt _ _ hi)) (Nat.lt_succ_self d.next) (Nat.le_succ d.next)

lemma content_replace_self : (d.replace n inode).content n = some inode := by
  simp [content, replace]

lemma content_replace_of_ne (h : d.Whole) (hne : m ≠ n) :
    (d.replace n inode).content m = d.content m := by
  rw [content, content, names_replace_of_ne hne]
  cases hm : d.names m with
  | none => rfl
  | some i => simp [replace, Function.update_of_ne (Nat.ne_of_lt (h.lt m i hm))]

end Disk

end Irori
