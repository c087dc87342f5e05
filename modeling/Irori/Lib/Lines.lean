import Mathlib.Data.List.Basic

/-!
# Lines

A stream cut into lines, each ending in a separator and holding none before it. However a stream is
read, its first line is the same.
-/

namespace Lines

variable {α : Type} {sep : α}

/-- A line: what ends in a separator, the only one in it. -/
def IsLine (sep : α) (line : List α) : Prop := ∃ body : List α, sep ∉ body ∧ line = body ++ [sep]

lemma IsLine.ne_nil {line : List α} (h : IsLine sep line) : line ≠ [] := by
  obtain ⟨body, -, rfl⟩ := h
  simp

lemma IsLine.prepend {line start : List α} (h : IsLine sep line) (hstart : sep ∉ start) :
    IsLine sep (start ++ line) := by
  obtain ⟨body, hbody, rfl⟩ := h
  exact ⟨start ++ body, by simp [hstart, hbody], by simp⟩

variable [DecidableEq α]

/-- The first line, with its separator, and what follows it. -/
def first (sep : α) : List α → Option (List α × List α)
  | [] => none
  | x :: xs =>
    if x = sep then some ([x], xs)
    else (first sep xs).map fun (line, rest) => (x :: line, rest)

lemma first_eq_none {l : List α} : first sep l = none ↔ sep ∉ l := by
  induction l with
  | nil => simp [first]
  | cons x l ih =>
    by_cases hx : x = sep
    · simp [first, hx]
    · simp [first, hx, ih, Ne.symm hx]

lemma first_eq_some {l line rest : List α} (h : first sep l = some (line, rest)) :
    IsLine sep line ∧ l = line ++ rest := by
  induction l generalizing line rest with
  | nil => simp [first] at h
  | cons x l ih =>
    by_cases hx : x = sep
    · simp only [first, hx, if_true, Option.some.injEq, Prod.mk.injEq] at h
      obtain ⟨rfl, rfl⟩ := h
      exact ⟨⟨[], by simp, rfl⟩, by simp [hx]⟩
    · simp only [first, hx, if_false, Option.map_eq_some_iff, Prod.exists, Prod.mk.injEq] at h
      obtain ⟨line', rest', hfirst, rfl, rfl⟩ := h
      obtain ⟨hline, rfl⟩ := ih hfirst
      have hstart : sep ∉ [x] := by simpa using Ne.symm hx
      exact ⟨hline.prepend hstart, rfl⟩

lemma first_append {line : List α} (h : IsLine sep line) (rest : List α) :
    first sep (line ++ rest) = some (line, rest) := by
  obtain ⟨body, hbody, rfl⟩ := h
  induction body with
  | nil => simp [first]
  | cons x body ih =>
    rw [List.mem_cons, not_or] at hbody
    have hrest := ih hbody.2
    simp only [List.cons_append, first, Ne.symm hbody.1, if_false, hrest, Option.map_some]

lemma eq_cons_of_flatten {lines : List (List α)} {line rest : List α}
    (hlines : ∀ line ∈ lines, IsLine sep line) (hline : IsLine sep line)
    (h : lines.flatten = line ++ rest) :
    ∃ later : List (List α), lines = line :: later ∧ later.flatten = rest := by
  cases lines with
  | nil =>
    rw [List.flatten_nil, List.nil_eq_append_iff] at h
    exact absurd h.1 hline.ne_nil
  | cons other later =>
    rw [List.flatten_cons] at h
    have hfirst := first_append (hlines other List.mem_cons_self) later.flatten
    rw [h, first_append hline, Option.some.injEq, Prod.mk.injEq] at hfirst
    exact ⟨later, by rw [hfirst.1], hfirst.2.symm⟩

end Lines
