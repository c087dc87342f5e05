import Irori.Config.Toml
import Irori.Lib.Lines

/-!
# Replacing the recorder's section

The lines up to a recorder's header, those of its section, and those from the next header on are
put together again with a new section. Doing it twice is doing it once. Where the section holds
nothing but pairs, and nothing else in the text is about the recorder, the text says the same
afterwards but for the recorder, and no other line is gone.
-/

namespace Irori.Config

open Lines (IsLine)

/-! ### Lines -/

lemma splitInclusive_flatten (text : List Char) : (splitInclusive text).flatten = text := by
  induction text with
  | nil => rfl
  | cons c rest ih =>
    by_cases hc : c = '\n'
    · simp [splitInclusive, hc, ih]
    · rw [splitInclusive, if_neg hc]
      cases hrest : splitInclusive rest with
      | nil => simpa [hrest] using ih
      | cons line lines => simpa [hrest] using ih

lemma splitInclusive_line {line : Line} (h : IsLine '\n' line) (rest : List Char) :
    splitInclusive (line ++ rest) = line :: splitInclusive rest := by
  obtain ⟨body, hbody, rfl⟩ := h
  induction body with
  | nil => simp [splitInclusive]
  | cons c body ih =>
    rw [List.mem_cons, not_or] at hbody
    have htail := ih hbody.2
    simp only [List.cons_append] at htail ⊢
    rw [splitInclusive, if_neg (Ne.symm hbody.1), htail]

lemma splitInclusive_lines {lines : List Line} (h : ∀ line ∈ lines, IsLine '\n' line)
    (rest : List Char) : splitInclusive (lines.flatten ++ rest) = lines ++ splitInclusive rest := by
  induction lines with
  | nil => rfl
  | cons line lines ih =>
    rw [List.flatten_cons, List.append_assoc, splitInclusive_line (h line List.mem_cons_self),
      ih fun line hline => h line (List.mem_cons_of_mem _ hline)]
    rfl

lemma splitInclusive_tail {text : List Char} {line : Line} {rest : List Line}
    (h : splitInclusive text = line :: rest) :
    splitInclusive rest.flatten = rest ∧ (rest ≠ [] → IsLine '\n' line) := by
  induction text generalizing line with
  | nil => simp [splitInclusive] at h
  | cons c text ih =>
    by_cases hc : c = '\n'
    · rw [splitInclusive, if_pos hc, List.cons.injEq] at h
      obtain ⟨rfl, rfl⟩ := h
      exact ⟨by rw [splitInclusive_flatten], fun _ => ⟨[], by simp, by simp [hc]⟩⟩
    · rw [splitInclusive, if_neg hc] at h
      cases hlines : splitInclusive text with
      | nil =>
        rw [hlines, List.cons.injEq] at h
        obtain ⟨-, rfl⟩ := h
        exact ⟨rfl, fun hne => absurd rfl hne⟩
      | cons first lines =>
        rw [hlines, List.cons.injEq] at h
        obtain ⟨rfl, rfl⟩ := h
        obtain ⟨hrest, hline⟩ := ih hlines
        refine ⟨hrest, fun hne => ?_⟩
        have hstart : '\n' ∉ [c] := by simpa using Ne.symm hc
        exact (hline hne).prepend hstart

lemma splitInclusive_cut {text : List Char} {before after : List Line}
    (h : splitInclusive text = before ++ after) :
    splitInclusive after.flatten = after ∧ (after ≠ [] → ∀ line ∈ before, IsLine '\n' line) := by
  induction before generalizing text with
  | nil =>
    rw [List.nil_append] at h
    refine ⟨by rw [← h, splitInclusive_flatten], fun _ line hline => absurd hline List.not_mem_nil⟩
  | cons line before ih =>
    obtain ⟨hrest, hline⟩ := splitInclusive_tail h
    obtain ⟨hafter, hbefore⟩ := ih hrest
    refine ⟨hafter, fun hne other hother => ?_⟩
    rcases List.mem_cons.mp hother with rfl | hother
    · exact hline (by simp [hne])
    · exact hbefore hne other hother

lemma exists_whole (text : List Char) : ∃ (whole : List Line) (rest : List Char),
    (∀ line ∈ whole, IsLine '\n' line) ∧ '\n' ∉ rest ∧ text = whole.flatten ++ rest := by
  induction text with
  | nil => exact ⟨[], [], by simp, by simp, rfl⟩
  | cons c text ih =>
    obtain ⟨whole, rest, hwhole, hrest, rfl⟩ := ih
    by_cases hc : c = '\n'
    · refine ⟨['\n'] :: whole, rest, fun line hline => ?_, hrest, by simp [hc]⟩
      rcases List.mem_cons.mp hline with rfl | hline
      · exact ⟨[], by simp, rfl⟩
      · exact hwhole line hline
    · have hstart : '\n' ∉ [c] := by simpa using Ne.symm hc
      cases whole with
      | nil => exact ⟨[], c :: rest, by simp, by simp [Ne.symm hc, hrest], rfl⟩
      | cons line whole =>
        refine ⟨(c :: line) :: whole, rest, fun other hother => ?_, hrest, rfl⟩
        rcases List.mem_cons.mp hother with rfl | hother
        · exact (hwhole line List.mem_cons_self).prepend hstart
        · exact hwhole other (List.mem_cons_of_mem _ hother)

lemma splitInclusive_rest {rest : List Char} (h : '\n' ∉ rest) (hne : rest ≠ []) :
    splitInclusive rest = [rest] := by
  induction rest with
  | nil => exact absurd rfl hne
  | cons c rest ih =>
    rw [List.mem_cons, not_or] at h
    rw [splitInclusive, if_neg (Ne.symm h.1)]
    by_cases hrest : rest = []
    · rw [hrest]
      rfl
    · rw [ih h.2 hrest]

lemma splitInclusive_whole {text : List Char} (h : text = [] ∨ ['\n'] <:+ text) :
    ∀ line ∈ splitInclusive text, IsLine '\n' line := by
  obtain ⟨whole, rest, hwhole, hrest, rfl⟩ := exists_whole text
  have hnil : rest = [] := by
    rcases h with h | ⟨front, hfront⟩
    · exact (List.append_eq_nil_iff.mp h).2
    · by_contra hne
      have hlast : rest.getLast hne = '\n' := by
        have heq := congrArg List.getLast? hfront
        simpa [List.getLast?_append, List.getLast?_eq_some_getLast hne] using heq.symm
      exact hrest (hlast ▸ List.getLast_mem hne)
  rw [hnil, splitInclusive_lines hwhole]
  simpa [splitInclusive] using hwhole

/-! ### Headers -/

def strip (line : Line) : Line := (line.dropWhile isWhitespace).rdropWhile isWhitespace

lemma trim_ofList (line : Line) : Core.trim (String.ofList line) = String.ofList (strip line) := by
  rw [Core.trim, String.toList_ofList, strip]

lemma strip_space {c : Char} (hc : isWhitespace c = true) (line : Line) :
    strip (c :: line) = strip line ∧ strip (line ++ [c]) = strip line := by
  refine ⟨by rw [strip, strip, List.dropWhile_cons_of_pos hc], ?_⟩
  rw [strip, strip, List.dropWhile_append]
  split
  · next hempty =>
    rw [List.isEmpty_iff] at hempty
    simp [hempty, hc]
  · rw [List.rdropWhile_concat_pos _ _ _ hc]

lemma strip_solid {line : Line} (h : ∀ c ∈ line, isWhitespace c = false) : strip line = line := by
  have hfirst : line.dropWhile isWhitespace = line := by
    cases line with
    | nil => rfl
    | cons c line => exact List.dropWhile_cons_of_neg (by simp [h c])
  rw [strip, hfirst]
  rcases line.eq_nil_or_concat with rfl | ⟨front, last, rfl⟩
  · rfl
  · simp only [List.concat_eq_append] at h ⊢
    exact List.rdropWhile_concat_neg _ _ _ (by simp [h last])

lemma strip_cons {c : Char} (hspace : isWhitespace c = false) (rest : Line) :
    strip (c :: rest) = c :: rest.rdropWhile isWhitespace := by
  rw [strip, List.dropWhile_cons_of_neg (by simp [hspace])]
  induction rest using List.reverseRecOn with
  | nil => simp [List.rdropWhile, hspace]
  | append_singleton rest last ih =>
    rw [← List.cons_append]
    by_cases hlast : isWhitespace last = true
    · rw [List.rdropWhile_concat_pos _ _ _ hlast, List.rdropWhile_concat_pos _ _ _ hlast, ih]
    · rw [List.rdropWhile_concat_neg _ _ _ hlast, List.rdropWhile_concat_neg _ _ _ hlast,
        List.cons_append]

lemma sectionName_eq_none {c : Char} {rest : Line} (hspace : isWhitespace c = false)
    (hc : c ≠ '[') : sectionName (c :: rest) = none := by
  rw [sectionName, trim_ofList, String.toList_ofList, strip_cons hspace]
  split
  · next heq => exact absurd (List.cons.inj heq).1 hc
  · rfl

lemma sectionName_blank : sectionName ['\n'] = none := by
  decide

lemma sectionName_newline (line : Line) : sectionName (line ++ ['\n']) = sectionName line := by
  rw [sectionName, sectionName, trim_ofList, trim_ofList, (strip_space (by decide) line).2]

lemma sectionName_unmarked {line : Line} (h : (sectionName line).isSome) :
    ∀ c ∈ line.head?, c.toNat ≠ 65279 := by
  intro c hc hmark
  cases line with
  | nil => simp at hc
  | cons first rest =>
    have heq : first = c := by simpa using hc
    have hspace : isWhitespace first = false := by simp [isWhitespace, heq, hmark]
    have hopen : first ≠ '[' := by
      rintro rfl
      rw [← heq] at hmark
      exact absurd hmark (by decide)
    simp [sectionName_eq_none hspace hopen] at h

lemma sectionName_recorder : sectionName "[recorder]\n".toList = some "recorder" := by
  decide

/-! ### The section put in -/

def spaced (text : List Char) : List Char :=
  let ended := if text ≠ [] && !List.isSuffixOf ['\n'] text then text ++ ['\n'] else text
  if ended ≠ [] && !List.isSuffixOf ['\n', '\n'] ended then ended ++ ['\n'] else ended

lemma spaced_nil : spaced [] = [] := rfl

lemma spaced_ends {text : List Char} (h : text ≠ []) : ['\n', '\n'] <:+ spaced text := by
  set ended := if text ≠ [] && !List.isSuffixOf ['\n'] text then text ++ ['\n'] else text
    with hended
  have hsuffix : ['\n'] <:+ ended := by
    rw [hended]
    split
    · exact List.suffix_append _ _
    · next hnot => simpa [h] using hnot
  have hne : ended ≠ [] := by
    rintro hnil
    simp [hnil] at hsuffix
  rw [spaced, ← hended]
  split
  · obtain ⟨front, hfront⟩ := hsuffix
    exact ⟨front, by rw [← hfront]; simp⟩
  · next hnot => simpa [hne] using hnot

lemma spaced_of_ends {text : List Char} (h : ['\n', '\n'] <:+ text) : spaced text = text := by
  have hone : ['\n'] <:+ text := (List.suffix_append ['\n'] ['\n']).trans h
  rw [spaced]
  simp [List.isSuffixOf_iff_suffix.mpr h, List.isSuffixOf_iff_suffix.mpr hone]

lemma spaced_spaced (text : List Char) : spaced (spaced text) = spaced text := by
  by_cases h : text = []
  · rw [h, spaced_nil, spaced_nil]
  · exact spaced_of_ends (spaced_ends h)

inductive Grown (text : List Char) : List Char → Prop
  | same : Grown text text
  | newline {grown : List Char} (h : Grown text grown) : Grown text (grown ++ ['\n'])

lemma spaced_grown (text : List Char) : Grown text (spaced text) := by
  rw [spaced]
  split <;> split
  · exact .newline (.newline .same)
  · exact .newline .same
  · exact .newline .same
  · exact .same

lemma splitInclusive_newline (text : List Char) :
    ((splitInclusive text).map bare).Sublist ((splitInclusive (text ++ ['\n'])).map bare) ∧
    ∀ line ∈ splitInclusive (text ++ ['\n']),
      sectionName line = none ∨
        ∃ old ∈ splitInclusive text, sectionName old = sectionName line := by
  obtain ⟨whole, rest, hwhole, hrest, rfl⟩ := exists_whole text
  have hend : IsLine '\n' (rest ++ ['\n']) := ⟨rest, hrest, rfl⟩
  have hline := splitInclusive_line hend []
  rw [List.append_nil] at hline
  rw [List.append_assoc, splitInclusive_lines hwhole, splitInclusive_lines hwhole, hline]
  by_cases hnil : rest = []
  · subst hnil
    refine ⟨by simp [splitInclusive], fun line hmem => ?_⟩
    rcases List.mem_append.mp hmem with hmem | hmem
    · exact .inr ⟨line, List.mem_append_left _ hmem, rfl⟩
    · have heq : line = ['\n'] := by simpa [splitInclusive] using hmem
      exact .inl (heq ▸ sectionName_blank)
  · rw [splitInclusive_rest hrest hnil]
    refine ⟨by simp [bare, splitInclusive], fun line hmem => ?_⟩
    rcases List.mem_append.mp hmem with hmem | hmem
    · exact .inr ⟨line, List.mem_append_left _ hmem, rfl⟩
    · have heq : line = rest ++ ['\n'] := by simpa [splitInclusive] using hmem
      exact .inr ⟨rest, by simp, by rw [heq, sectionName_newline]⟩

lemma Grown.lines {text grown : List Char} (h : Grown text grown) :
    ((splitInclusive text).map bare).Sublist ((splitInclusive grown).map bare) ∧
    ∀ line ∈ splitInclusive grown,
      sectionName line = none ∨
        ∃ old ∈ splitInclusive text, sectionName old = sectionName line := by
  induction h with
  | same => exact ⟨List.Sublist.refl _, fun line hline => .inr ⟨line, hline, rfl⟩⟩
  | newline _ ih =>
    obtain ⟨hkept, hnamed⟩ := splitInclusive_newline _
    refine ⟨ih.1.trans hkept, fun line hline => ?_⟩
    rcases hnamed line hline with hnone | ⟨middle, hmiddle, heq⟩
    · exact .inl hnone
    · rw [← heq]
      exact ih.2 middle hmiddle

def recorderLines (part : RecorderSection) : List Line :=
  "[recorder]\n".toList :: pairLine "retain_days" part.retainDays ::
    match part.summaryDays with
    | some days => [pairLine "summary_days" days]
    | none => []

structure Cut (text : String) (before own after : List Line) : Prop where
  lines : splitInclusive text.toList = before ++ (own ++ after)
  before_unnamed : ∀ line ∈ before, sectionName line ≠ some "recorder"
  own_nil : own = [] → after = []
  own_head : ∀ line ∈ own.head?, sectionName line = some "recorder"
  own_tail : ∀ line ∈ own.tail, sectionName line = none
  after_head : ∀ line ∈ after.head?, (sectionName line).isSome

lemma recorderLines_flatten (part : RecorderSection) :
    (recorderLines part).flatten = ("[recorder]\nretain_days = " ++ toString part.retainDays ++
      "\n" ++ match part.summaryDays with
        | some days => "summary_days = " ++ toString days ++ "\n"
        | none => "").toList := by
  cases hsummary : part.summaryDays with
  | none => simp [recorderLines, pairLine, hsummary]
  | some days => simp [recorderLines, pairLine, hsummary]

lemma upsertRecorder_cut {text : String} {before own after : List Line}
    (hcut : Cut text before own after) (part : RecorderSection) :
    (upsertRecorder text part).toList =
      spaced before.flatten ++ ((recorderLines part).flatten ++ after.flatten) := by
  have hflat := splitInclusive_flatten text.toList
  rw [upsertRecorder, recorderLines_flatten]
  cases own with
  | nil =>
    have hafter := hcut.own_nil rfl
    subst hafter
    have hlines : splitInclusive text.toList = before := by simpa using hcut.lines
    have hnone : (splitInclusive text.toList).findIdx?
        (fun line => decide (sectionName line = some "recorder")) = none := by
      rw [List.findIdx?_eq_none_iff, hlines]
      simpa using hcut.before_unnamed
    simp only [hnone, String.toList_ofList, List.flatten_nil, List.append_nil]
    rw [← hlines, hflat]
    rfl
  | cons header pairs =>
    have hheader := hcut.own_head header rfl
    have hfind : (splitInclusive text.toList).findIdx?
        (fun line => decide (sectionName line = some "recorder")) = some before.length := by
      rw [hcut.lines, List.findIdx?_append, List.findIdx?_eq_none_iff.mpr]
      · simp [List.findIdx?_cons, hheader]
      · simpa using hcut.before_unnamed
    have hstop : ((pairs ++ after).findIdx? fun line => (sectionName line).isSome).getD
        (pairs ++ after).length = pairs.length := by
      rw [List.findIdx?_append, List.findIdx?_eq_none_iff.mpr]
      · cases after with
        | nil => simp
        | cons line after =>
          have hline := hcut.after_head line rfl
          simp [List.findIdx?_cons, hline]
      · intro line hline
        simp [hcut.own_tail line hline]
    have hdrop : (splitInclusive text.toList).drop (before.length + 1) = pairs ++ after := by
      rw [hcut.lines]
      simp [List.drop_append]
    have htake : (splitInclusive text.toList).take before.length = before := by
      rw [hcut.lines]
      simp
    simp only [hfind, hdrop, hstop, htake, String.toList_ofList, List.drop_left,
      List.append_assoc]
    rfl

lemma exists_cut (text : String) : ∃ before own after : List Line, Cut text before own after := by
  set lines := splitInclusive text.toList with hlines
  set isHeader : Line → Bool := fun line => decide (sectionName line = some "recorder")
  cases hrest : lines.dropWhile (fun line => !isHeader line) with
  | nil =>
    refine ⟨lines, [], [], by simp [← hlines], fun line hline => ?_, fun _ => rfl, by simp,
      by simp, by simp⟩
    have hall := List.dropWhile_eq_nil_iff.mp hrest line hline
    simpa [isHeader] using hall
  | cons header rest =>
    have hheader : isHeader header = true := by
      have hhead := List.head_dropWhile_not (fun line => !isHeader line)
        (show lines.dropWhile _ ≠ [] by simp [hrest])
      simpa [hrest] using hhead
    set unnamed : Line → Bool := fun line => (sectionName line).isNone
    refine ⟨lines.takeWhile fun line => !isHeader line, header :: rest.takeWhile unnamed,
      rest.dropWhile unnamed, ?_, fun line hline => ?_, fun h => absurd h (by simp), ?_, ?_, ?_⟩
    · rw [List.cons_append, List.takeWhile_append_dropWhile, ← hrest,
        List.takeWhile_append_dropWhile, hlines]
    · have hnot := List.mem_takeWhile_imp hline
      simpa [isHeader] using hnot
    · intro line hline
      have heq : header = line := by simpa using hline
      subst heq
      simpa [isHeader] using hheader
    · intro line hline
      have hnone := List.mem_takeWhile_imp (by simpa using hline)
      simpa [unnamed] using hnone
    · intro line hline
      cases hafter : rest.dropWhile unnamed with
      | nil => simp [hafter] at hline
      | cons first others =>
        have hhead := List.head_dropWhile_not unnamed
          (show rest.dropWhile _ ≠ [] by simp [hafter])
        have heq : first = line := by simpa [hafter] using hline
        subst heq
        simpa [hafter, unnamed, Option.isSome_iff_ne_none] using hhead

/-! ### Doing it twice -/

lemma Cut.before_lines {text : String} {before own after : List Line}
    (hcut : Cut text before own after) : splitInclusive before.flatten = before := by
  by_cases hnil : own ++ after = []
  · have hlines := hcut.lines
    rw [hnil, List.append_nil] at hlines
    rw [← hlines, splitInclusive_flatten]
  · have hwhole := (splitInclusive_cut hcut.lines).2 hnil
    simpa [splitInclusive] using splitInclusive_lines hwhole []

lemma Cut.after_lines {text : String} {before own after : List Line}
    (hcut : Cut text before own after) : splitInclusive after.flatten = after := by
  have hlines := hcut.lines
  rw [← List.append_assoc] at hlines
  exact (splitInclusive_cut hlines).1

lemma digits_no_newline (n : Nat) : '\n' ∉ Nat.toDigits 10 n := by
  intro hmem
  have hdigit := Nat.isDigit_of_mem_toDigits (by decide) (by decide) hmem
  exact absurd hdigit (by decide)

lemma pairLine_isLine {key : String} (h : '\n' ∉ key.toList) (n : Nat) :
    IsLine '\n' (pairLine key n) := by
  refine ⟨(key ++ " = " ++ toString n).toList, ?_, by simp [pairLine]⟩
  simp [h, digits_no_newline n]

lemma recorderLines_isLine (part : RecorderSection) :
    ∀ line ∈ recorderLines part, IsLine '\n' line := by
  have hheader : IsLine '\n' "[recorder]\n".toList := ⟨"[recorder]".toList, by decide, by decide⟩
  have hretain : IsLine '\n' (pairLine "retain_days" part.retainDays) :=
    pairLine_isLine (by decide) _
  intro line hline
  cases hsummary : part.summaryDays with
  | none =>
    simp only [recorderLines, hsummary, List.mem_cons, List.not_mem_nil, or_false] at hline
    rcases hline with rfl | rfl
    · exact hheader
    · exact hretain
  | some days =>
    simp only [recorderLines, hsummary, List.mem_cons, List.not_mem_nil, or_false] at hline
    rcases hline with rfl | rfl | rfl
    · exact hheader
    · exact hretain
    · exact pairLine_isLine (by decide) days

lemma recorderLines_tail (part : RecorderSection) :
    ∀ line ∈ (recorderLines part).tail, sectionName line = none := by
  have hretain : sectionName (pairLine "retain_days" part.retainDays) = none := by
    simp only [pairLine, String.toList_append]
    exact sectionName_eq_none (by decide) (by decide)
  intro line hline
  cases hsummary : part.summaryDays with
  | none =>
    simp only [recorderLines, hsummary, List.tail_cons, List.mem_singleton] at hline
    rw [hline, hretain]
  | some days =>
    simp only [recorderLines, hsummary, List.tail_cons, List.mem_cons, List.not_mem_nil,
      or_false] at hline
    rcases hline with rfl | rfl
    · exact hretain
    · simp only [pairLine, String.toList_append]
      exact sectionName_eq_none (by decide) (by decide)

lemma spaced_whole (text : List Char) : spaced text = [] ∨ ['\n'] <:+ spaced text := by
  by_cases h : text = []
  · exact .inl (by rw [h, spaced_nil])
  · exact .inr ((List.suffix_append ['\n'] ['\n']).trans (spaced_ends h))

lemma upsertRecorder_lines {text : String} {before own after : List Line}
    (hcut : Cut text before own after) (part : RecorderSection) :
    splitInclusive (upsertRecorder text part).toList =
      splitInclusive (spaced before.flatten) ++ (recorderLines part ++ after) := by
  have hwhole := splitInclusive_whole (spaced_whole before.flatten)
  have hspaced := splitInclusive_flatten (spaced before.flatten)
  rw [upsertRecorder_cut hcut]
  calc splitInclusive (spaced before.flatten ++ ((recorderLines part).flatten ++ after.flatten))
      = splitInclusive ((splitInclusive (spaced before.flatten)).flatten ++
          ((recorderLines part).flatten ++ after.flatten)) := by rw [hspaced]
    _ = splitInclusive (spaced before.flatten) ++
          splitInclusive ((recorderLines part).flatten ++ after.flatten) :=
        splitInclusive_lines hwhole _
    _ = splitInclusive (spaced before.flatten) ++ (recorderLines part ++ after) := by
        rw [splitInclusive_lines (recorderLines_isLine part), hcut.after_lines]

lemma Cut.again {text : String} {before own after : List Line} (hcut : Cut text before own after)
    (part : RecorderSection) :
    Cut (upsertRecorder text part) (splitInclusive (spaced before.flatten)) (recorderLines part)
      after := by
  refine ⟨upsertRecorder_lines hcut part, fun line hline => ?_, fun h => absurd h (by simp
    [recorderLines]), ?_, recorderLines_tail part, hcut.after_head⟩
  · rcases (spaced_grown before.flatten).lines.2 line hline with hnone | ⟨old, hold, heq⟩
    · simp [hnone]
    · rw [hcut.before_lines] at hold
      rw [← heq]
      exact hcut.before_unnamed old hold
  · intro line hline
    have heq : "[recorder]\n".toList = line := by simpa [recorderLines] using hline
    rw [← heq, sectionName_recorder]

lemma upsertRecorder_again (text : String) (part : RecorderSection) :
    upsertRecorder (upsertRecorder text part) part = upsertRecorder text part := by
  obtain ⟨before, own, after, hcut⟩ := exists_cut text
  apply String.toList_injective
  rw [upsertRecorder_cut (hcut.again part), splitInclusive_flatten, spaced_spaced,
    upsertRecorder_cut hcut]

/-! ### What is said -/

section

variable {ν ι : Type}

lemma context_append (table : List String) (first second : List (Entry ν)) :
    context table (first ++ second) = context (context table first) second := by
  induction first generalizing table with
  | nil => rfl
  | cons entry first ih =>
    cases entry with
    | header path => exact ih path
    | pair key value => exact ih table

lemma statements_append (table : List String) (first second : List (Entry ν)) :
    statements table (first ++ second) =
      statements table first ++ statements (context table first) second := by
  induction first generalizing table with
  | nil => rfl
  | cons entry first ih =>
    cases entry with
    | header path => simp [statements, context, ih path]
    | pair key value => simp [statements, context, ih table]

lemma statements_header {entries : List (Entry ν)} (h : ∀ entry ∈ entries.head?, entry.isHeader)
    (table other : List String) : statements table entries = statements other entries := by
  cases entries with
  | nil => rfl
  | cons entry entries =>
    cases entry with
    | header path => rfl
    | pair key value => simp [Entry.isHeader] at h

lemma statements_pairs {entries : List (Entry ν)} (h : ∀ entry ∈ entries, entry.isHeader = false) :
    ∀ statement ∈ statements ["recorder"] entries, aboutRecorder statement = true := by
  induction entries with
  | nil => simp [statements]
  | cons entry entries ih =>
    cases entry with
    | header path => simp [Entry.isHeader] at h
    | pair key value =>
      intro statement hstatement
      rcases List.mem_cons.mp hstatement with rfl | hstatement
      · rfl
      · exact ih (fun entry hentry => h entry (List.mem_cons_of_mem _ hentry)) statement hstatement

lemma RecorderSection.statements_about (number : Nat → ν) (part : RecorderSection) :
    ∀ statement ∈ part.statements number, aboutRecorder statement = true := by
  intro statement hstatement
  rcases part with ⟨retain, _ | days⟩ <;> simp only [RecorderSection.statements, List.mem_cons,
    List.not_mem_nil, or_false] at hstatement
  · rcases hstatement with rfl | rfl <;> rfl
  · rcases hstatement with rfl | rfl | rfl <;> rfl

lemma filter_about {all : List (Statement ν)}
    (h : ∀ statement ∈ all, aboutRecorder statement = true) :
    all.filter aboutRecorder = all ∧ (all.filter fun statement => !aboutRecorder statement) = [] :=
  ⟨List.filter_eq_self.mpr h, List.filter_eq_nil_iff.mpr fun statement hstatement => by
    simp [h statement hstatement]⟩

lemma filter_others {all : List (Statement ν)}
    (h : ∀ statement ∈ all, aboutRecorder statement = false) : all.filter aboutRecorder = [] :=
  List.filter_eq_nil_iff.mpr fun statement hstatement => by simp [h statement hstatement]

/-! ### Reading it -/

lemma unmarked_append {first second : List Char}
    (h : first ≠ [] ∨ ∀ c ∈ second.head?, c.toNat ≠ 65279) :
    unmarked (first ++ second) = unmarked first ++ second := by
  cases first with
  | nil =>
    cases second with
    | nil => rfl
    | cons c second =>
      have hc : c.toNat ≠ 65279 := by simpa using h
      simp [unmarked, hc]
  | cons c first =>
    rw [List.cons_append, unmarked, unmarked]
    split <;> rfl

lemma unmarked_whole {text : List Char} (h : text = [] ∨ ['\n'] <:+ text) :
    unmarked text = [] ∨ ['\n'] <:+ unmarked text := by
  rcases h with rfl | ⟨front, rfl⟩
  · exact .inl rfl
  · exact .inr ⟨unmarked front, (unmarked_append (.inr (by simp))).symm⟩

namespace Reader

variable (reader : Reader ν ι)

lemma parse_whole {first second : List Char} {entries later : List (Entry ν)}
    (hwhole : first = [] ∨ ['\n'] <:+ first) (hfirst : reader.parse first = some entries)
    (hsecond : reader.parse second = some later) :
    reader.parse (first ++ second) = some (entries ++ later) := by
  rcases hwhole with rfl | ⟨front, rfl⟩
  · rw [reader.parse_nil, Option.some.injEq] at hfirst
    simpa [← hfirst] using hsecond
  · exact reader.parse_append hfirst hsecond

lemma parse_grown {text grown : List Char} {entries : List (Entry ν)} (h : Grown text grown)
    (hparse : reader.parse (unmarked text) = some entries) :
    reader.parse (unmarked grown) = some entries := by
  induction h with
  | same => exact hparse
  | newline _ ih =>
    rw [unmarked_append (.inr (by simp))]
    exact reader.parse_newline ih

lemma parse_recorderLines {part : RecorderSection} (hrange : part.InRange) :
    ∃ entries : List (Entry ν), reader.parse (recorderLines part).flatten = some entries ∧
      ∀ table, statements table entries = part.statements reader.number := by
  have hheader : ['\n'] <:+ "[recorder]\n".toList := ⟨"[recorder]".toList, by decide⟩
  have hpair : ∀ (key : String) n, ['\n'] <:+ pairLine key n := fun key n =>
    ⟨(key ++ " = " ++ toString n).toList, by simp [pairLine]⟩
  have hretained : ∀ c ∈ "retain_days".toList, isSlugChar c = true :=
    List.all_eq_true.mp (by decide)
  have hsummed : ∀ c ∈ "summary_days".toList, isSlugChar c = true :=
    List.all_eq_true.mp (by decide)
  have hretain := reader.parse_pair "retain_days" part.retainDays (by decide) hretained hrange.1
  cases hsummary : part.summaryDays with
  | none =>
    refine ⟨[.header ["recorder"]] ++ [.pair ["retain_days"] (reader.number part.retainDays)], ?_,
      fun table => ?_⟩
    · simp only [recorderLines, hsummary, List.flatten_cons, List.flatten_nil, List.append_nil]
      exact reader.parse_whole (.inr hheader) reader.parse_header hretain
    · simp [statements, RecorderSection.statements, hsummary]
  | some days =>
    have hdays := reader.parse_pair "summary_days" days (by decide) hsummed
      (hrange.2 days hsummary)
    refine ⟨[.header ["recorder"]] ++ ([.pair ["retain_days"] (reader.number part.retainDays)] ++
      [.pair ["summary_days"] (reader.number days)]), ?_, fun table => ?_⟩
    · simp only [recorderLines, hsummary, List.flatten_cons, List.flatten_nil, List.append_nil]
      exact reader.parse_whole (.inr hheader) reader.parse_header
        (reader.parse_whole (.inr (hpair _ _)) hretain hdays)
    · simp [statements, RecorderSection.statements, hsummary]

lemma settingsOf_replaced {all new : List (Statement ν)} {settings : IroriSettings ι}
    {part : RecorderSection} (h : reader.settingsOf all = some settings)
    (hcheck : part.check = .ok ()) (hrange : part.InRange)
    (hothers : new.filter (fun statement => !aboutRecorder statement) =
      all.filter fun statement => !aboutRecorder statement)
    (hrecorder : new.filter aboutRecorder = part.statements reader.number) :
    reader.settingsOf new = some { settings with recorder := part } := by
  simp only [settingsOf, Option.bind_eq_bind, Option.bind_eq_some_iff, Prod.exists] at h
  obtain ⟨disabled, rest, hrest, recorder, -, hsome⟩ := h
  have hsettings : settings.disabled = disabled ∧ settings.rest = rest := by
    split at hsome
    · rw [Option.some.injEq] at hsome
      simp [← hsome]
    · simp at hsome
  simp only [settingsOf, hothers, hrest, hrecorder, reader.recorder_statements part hrange,
    Option.bind_eq_bind, Option.bind_some, hcheck]
  simp [Except.isOk, Except.toBool, hsettings]

/-- The lines of a text in which the recorder's section is plain: nothing before it or after it is
about the recorder, its header is written the usual way, and every other line of it is a pair. -/
structure Plain (text : String) (before own after : List Line) (entries later : List (Entry ν)) :
    Prop where
  cut : Cut text before own after
  before_parsed : reader.parse (unmarked before.flatten) = some entries
  after_parsed : reader.parse after.flatten = some later
  others : ∀ statement ∈ statements [] entries ++ statements [] later,
    aboutRecorder statement = false
  header : ∀ line ∈ own.head?, bare line = "[recorder]".toList ∧
    reader.parse line = some [.header ["recorder"]]
  pairs : ∀ line ∈ own.tail, ∃ key value, reader.parse line = some [.pair key value]
  after_header : ∀ entry ∈ later.head?, entry.isHeader

def Tidy (text : String) : Prop :=
  ∃ (before own after : List Line) (entries later : List (Entry ν)),
    reader.Plain text before own after entries later

/-- The settings are those of before but for the recorder's, every line that isn't one of the
recorder's own pairs is there in order, and doing it twice is doing it once. -/
structure Replaced (text : String) (part : RecorderSection) (settings : IroriSettings ι) :
    Prop where
  read : reader.read (upsertRecorder text part) = some { settings with recorder := part }
  kept : ((reader.otherLines [] (splitInclusive text.toList)).map bare).Sublist
    ((splitInclusive (upsertRecorder text part).toList).map bare)
  again : upsertRecorder (upsertRecorder text part) part = upsertRecorder text part

variable {reader} {text : String} {before own after : List Line} {entries later : List (Entry ν)}

lemma parse_pairs {first : List Char} {pairs : List Line}
    (hfirst : reader.parse first = some entries) (hends : ['\n'] <:+ first)
    (hwhole : ∀ line ∈ pairs.dropLast, IsLine '\n' line)
    (hpairs : ∀ line ∈ pairs, ∃ key value, reader.parse line = some [.pair key value]) :
    ∃ said : List (Entry ν), reader.parse (first ++ pairs.flatten) = some (entries ++ said) ∧
      ∀ entry ∈ said, entry.isHeader = false := by
  induction pairs generalizing first entries with
  | nil => exact ⟨[], by simpa using hfirst, by simp⟩
  | cons line pairs ih =>
    obtain ⟨key, value, hline⟩ := hpairs line List.mem_cons_self
    have hnext := reader.parse_whole (.inr hends) hfirst hline
    cases pairs with
    | nil => exact ⟨[.pair key value], by simpa using hnext, by simp [Entry.isHeader]⟩
    | cons other pairs =>
      obtain ⟨body, -, rfl⟩ := hwhole line (by simp)
      obtain ⟨said, hsaid, hkinds⟩ := ih hnext ⟨first ++ body, by simp⟩
        (fun line hline => hwhole line (by
          rw [List.dropLast_cons_of_ne_nil (by simp)]
          exact List.mem_cons_of_mem _ hline))
        fun line hline => hpairs line (List.mem_cons_of_mem _ hline)
      refine ⟨.pair key value :: said, ?_, ?_⟩
      · simpa using hsaid
      · simpa [Entry.isHeader] using hkinds

lemma otherLines_sublist (lines before : List Line) :
    (reader.otherLines before lines).Sublist lines := by
  induction lines generalizing before with
  | nil => exact List.Sublist.refl _
  | cons line lines ih =>
    rw [otherLines]
    split
    · exact (ih _).cons _
    · exact (ih _).cons_cons _

lemma otherLines_append (before lines rest : List Line) :
    reader.otherLines before (lines ++ rest) =
      reader.otherLines before lines ++ reader.otherLines (before ++ lines) rest := by
  induction lines generalizing before with
  | nil => simp [otherLines]
  | cons line lines ih =>
    rw [List.cons_append, otherLines, otherLines]
    split
    · rw [ih, List.append_assoc, List.singleton_append]
    · rw [ih, List.append_assoc, List.singleton_append, List.cons_append]

lemma otherLines_pairs {pairs : List Line}
    (hfirst : reader.parse (unmarked before.flatten) = some entries)
    (hends : ['\n'] <:+ before.flatten) (htable : context [] entries = ["recorder"])
    (hwhole : ∀ line ∈ pairs.dropLast, IsLine '\n' line)
    (hpairs : ∀ line ∈ pairs, ∃ key value, reader.parse line = some [.pair key value]) :
    reader.otherLines before pairs = [] := by
  induction pairs generalizing before entries with
  | nil => rfl
  | cons line pairs ih =>
    obtain ⟨key, value, hline⟩ := hpairs line List.mem_cons_self
    have hown : reader.isOwn before line = true := by
      simp [isOwn, hfirst, hline, htable, aboutRecorder]
    rw [otherLines, if_pos hown]
    cases pairs with
    | nil => rfl
    | cons other pairs =>
      obtain ⟨front, hfront⟩ := hends
      obtain ⟨body, -, hbody⟩ := hwhole line (by simp)
      have hmarked : unmarked (before.flatten ++ line) = unmarked before.flatten ++ line :=
        unmarked_append (.inl (by simp [← hfront]))
      have hnext : reader.parse (unmarked (before ++ [line]).flatten) =
          some (entries ++ [.pair key value]) := by
        simp only [List.flatten_append, List.flatten_cons, List.flatten_nil, List.append_nil]
        rw [hmarked]
        exact reader.parse_whole (unmarked_whole (.inr ⟨front, hfront⟩)) hfirst hline
      have htableNext : context [] (entries ++ [.pair key value]) = ["recorder"] := by
        rw [context_append, htable]
        rfl
      refine ih hnext ⟨before.flatten ++ body, by simp [hbody]⟩ htableNext (fun line hline => ?_)
        fun line hline => hpairs line (List.mem_cons_of_mem _ hline)
      refine hwhole line ?_
      rw [List.dropLast_cons_of_ne_nil (by simp)]
      exact List.mem_cons_of_mem _ hline

lemma flatten_whole {lines : List Line} (h : ∀ line ∈ lines, IsLine '\n' line) :
    lines.flatten = [] ∨ ['\n'] <:+ lines.flatten := by
  rcases lines.eq_nil_or_concat with rfl | ⟨front, last, rfl⟩
  · exact .inl rfl
  · obtain ⟨body, -, rfl⟩ := h last (by simp)
    exact .inr ⟨front.flatten ++ body, by simp⟩

lemma Plain.toList (h : reader.Plain text before own after entries later) :
    text.toList = before.flatten ++ (own.flatten ++ after.flatten) := by
  rw [← splitInclusive_flatten text.toList, h.cut.lines, List.flatten_append, List.flatten_append]

lemma Plain.later_nil (h : reader.Plain text before own after entries later) (hafter : after = []) :
    later = [] := by
  have hparsed := h.after_parsed
  rw [hafter, List.flatten_nil, reader.parse_nil, Option.some.injEq] at hparsed
  exact hparsed.symm

section

variable {header : Line} {pairs : List Line}
  (h : reader.Plain text before (header :: pairs) after entries later)

include h

lemma Plain.header_line (hpairs : pairs ≠ []) : IsLine '\n' header := by
  have hcut : splitInclusive text.toList = (before ++ [header]) ++ (pairs ++ after) := by
    simpa using h.cut.lines
  exact (splitInclusive_cut hcut).2 (by simp [hpairs]) header (by simp)

lemma Plain.header_unmarked (rest : List Char) :
    unmarked (before.flatten ++ (header ++ rest)) =
      unmarked before.flatten ++ (header ++ rest) := by
  have hname := h.cut.own_head header rfl
  have hmark : ∀ c ∈ header.head?, c.toNat ≠ 65279 := sectionName_unmarked (by simp [hname])
  refine unmarked_append (.inr fun c hc => hmark c ?_)
  cases header with
  | nil => exact absurd hname (by decide)
  | cons first rest => simpa using hc

lemma Plain.header_parsed : reader.parse (unmarked before.flatten ++ header) =
    some (entries ++ [.header ["recorder"]]) := by
  have hbefore := unmarked_whole (flatten_whole ((splitInclusive_cut h.cut.lines).2 (by simp)))
  exact reader.parse_whole hbefore h.before_parsed (h.header header rfl).2

lemma Plain.pairs_whole : ∀ line ∈ pairs.dropLast, IsLine '\n' line := by
  rcases pairs.eq_nil_or_concat with rfl | ⟨front, last, rfl⟩
  · simp
  · have hcut : splitInclusive text.toList = (before ++ header :: front) ++ (last :: after) := by
      simpa using h.cut.lines
    intro line hline
    refine (splitInclusive_cut hcut).2 (by simp) line ?_
    have hfront : line ∈ front := by simpa using hline
    simp [hfront]

end

lemma Plain.parsed (h : reader.Plain text before own after entries later) :
    ∃ said : List (Entry ν),
      reader.parse (unmarked text.toList) = some (entries ++ (said ++ later)) ∧
      ∀ statement ∈ statements (context [] entries) said, aboutRecorder statement = true := by
  cases own with
  | nil =>
    have hafter := h.cut.own_nil rfl
    have hlater := h.later_nil hafter
    refine ⟨[], ?_, by simp [statements]⟩
    rw [h.toList, hafter, hlater]
    simpa using h.before_parsed
  | cons header pairs =>
    have hlines := h.cut.lines
    have hmarked : unmarked text.toList =
        unmarked before.flatten ++ header ++ (pairs.flatten ++ after.flatten) := by
      have hrest := h.header_unmarked (pairs.flatten ++ after.flatten)
      simpa [h.toList] using hrest
    obtain ⟨said, hsaid, hkinds⟩ : ∃ said : List (Entry ν),
        reader.parse (unmarked before.flatten ++ header ++ pairs.flatten) =
          some (entries ++ [.header ["recorder"]] ++ said) ∧
        ∀ entry ∈ said, entry.isHeader = false := by
      by_cases hpairs : pairs = []
      · exact ⟨[], by simpa [hpairs] using h.header_parsed, by simp⟩
      · obtain ⟨body, -, hbody⟩ := h.header_line hpairs
        exact parse_pairs h.header_parsed ⟨unmarked before.flatten ++ body, by simp [hbody]⟩
          h.pairs_whole h.pairs
    refine ⟨.header ["recorder"] :: said, ?_, ?_⟩
    · rw [hmarked]
      by_cases hafter : after = []
      · have hlater := h.later_nil hafter
        simpa [hafter, hlater] using hsaid
      · have hcut : splitInclusive text.toList = (before ++ header :: pairs) ++ after := by
          simpa using hlines
        have hwhole := (splitInclusive_cut hcut).2 hafter
        have hends : ['\n'] <:+ unmarked before.flatten ++ header ++ pairs.flatten := by
          have hown : ∀ line ∈ header :: pairs, IsLine '\n' line := fun line hline =>
            hwhole line (List.mem_append_right _ hline)
          rcases flatten_whole hown with hnil | hends
          · have hempty : header = [] := (List.append_eq_nil_iff.mp hnil).1
            exact absurd hempty (hown header List.mem_cons_self).ne_nil
          · rw [List.append_assoc]
            exact hends.trans (List.suffix_append _ _)
        simpa using reader.parse_whole (.inr hends) hsaid h.after_parsed
    · intro statement hstatement
      rcases List.mem_cons.mp hstatement with rfl | hstatement
      · rfl
      · exact statements_pairs hkinds statement hstatement

lemma Plain.parsed_again (h : reader.Plain text before own after entries later)
    {part : RecorderSection} (hrange : part.InRange) :
    ∃ said : List (Entry ν),
      reader.parse (unmarked (upsertRecorder text part).toList) =
        some (entries ++ (said ++ later)) ∧
      ∀ table, statements table said = part.statements reader.number := by
  obtain ⟨said, hsaid, hstatements⟩ := reader.parse_recorderLines hrange
  refine ⟨said, ?_, hstatements⟩
  have hbefore := reader.parse_grown (spaced_grown before.flatten) h.before_parsed
  have hwhole := unmarked_whole (spaced_whole before.flatten)
  have hlines := flatten_whole (recorderLines_isLine part)
  have hmarked : unmarked (upsertRecorder text part).toList =
      unmarked (spaced before.flatten) ++ ((recorderLines part).flatten ++ after.flatten) := by
    rw [upsertRecorder_cut h.cut, unmarked_append (.inr ?_)]
    intro c hc
    have heq : '[' = c := by simpa [recorderLines] using hc
    simp [← heq]
  rw [hmarked]
  exact reader.parse_whole hwhole hbefore (reader.parse_whole hlines hsaid h.after_parsed)

lemma Plain.kept (h : reader.Plain text before own after entries later) (part : RecorderSection) :
    ((reader.otherLines [] (splitInclusive text.toList)).map bare).Sublist
      ((splitInclusive (upsertRecorder text part).toList).map bare) := by
  have hbefore := (spaced_grown before.flatten).lines.1
  rw [h.cut.before_lines] at hbefore
  rw [upsertRecorder_lines h.cut, h.cut.lines, otherLines_append, otherLines_append,
    List.nil_append]
  simp only [List.map_append]
  refine List.Sublist.append (((otherLines_sublist before []).map bare).trans hbefore)
    (List.Sublist.append ?_ ((otherLines_sublist after _).map bare))
  cases own with
  | nil => simp [otherLines]
  | cons header pairs =>
    obtain ⟨hbare, hheader⟩ := h.header header rfl
    have hpairs : reader.otherLines (before ++ [header]) pairs = [] := by
      by_cases hnil : pairs = []
      · rw [hnil]
        rfl
      · obtain ⟨body, hbody⟩ := h.header_line hnil
        have hflat := h.header_unmarked []
        rw [List.append_nil] at hflat
        have hparsed : reader.parse (unmarked (before ++ [header]).flatten) =
            some (entries ++ [.header ["recorder"]]) := by
          rw [List.flatten_append, List.flatten_singleton, hflat]
          exact h.header_parsed
        have htable : context [] (entries ++ [Entry.header ["recorder"]]) = ["recorder"] := by
          rw [context_append]
          rfl
        exact otherLines_pairs hparsed ⟨before.flatten ++ body, by simp [hbody.2]⟩ htable
          h.pairs_whole h.pairs
    have hnot : reader.isOwn before header = false := by
      simp [isOwn, h.before_parsed, hheader]
    have hsame : bare header = bare "[recorder]\n".toList := hbare.trans (by decide)
    rw [otherLines, hnot, if_neg (by simp), hpairs, recorderLines, List.map_cons, List.map_cons,
      hsame]
    exact (List.nil_sublist _).cons_cons _

theorem replaced_of_tidy {ν ι : Type} (reader : Reader ν ι) {text : String}
    {part : RecorderSection} {settings : IroriSettings ι} (hread : reader.read text = some settings)
    (hcheck : part.check = .ok ()) (hrange : part.InRange) (htidy : reader.Tidy text) :
    reader.Replaced text part settings := by
  obtain ⟨before, own, after, entries, later, h⟩ := htidy
  refine ⟨?_, h.kept part, upsertRecorder_again text part⟩
  obtain ⟨old, hold, habout⟩ := h.parsed
  obtain ⟨new, hnew, hpart⟩ := h.parsed_again hrange
  rw [read, hold] at hread
  rw [read, hnew]
  have hfirst : ∀ statement ∈ statements [] entries, aboutRecorder statement = false :=
    fun statement hstatement => h.others statement (List.mem_append_left _ hstatement)
  have hlast : ∀ statement ∈ statements [] later, aboutRecorder statement = false :=
    fun statement hstatement => h.others statement (List.mem_append_right _ hstatement)
  have hsplit : ∀ said : List (Entry ν), statements [] (entries ++ (said ++ later)) =
      statements [] entries ++ (statements (context [] entries) said ++ statements [] later) := by
    intro said
    rw [statements_append, statements_append, statements_header h.after_header _ []]
  change reader.settingsOf (statements [] (entries ++ (old ++ later))) = _ at hread
  change reader.settingsOf (statements [] (entries ++ (new ++ later))) = _
  have hsection := RecorderSection.statements_about reader.number part
  rw [hsplit] at hread
  rw [hsplit, hpart]
  refine reader.settingsOf_replaced hread hcheck hrange ?_ ?_
  · simp only [List.filter_append, (filter_about habout).2, (filter_about hsection).2]
  · simp only [List.filter_append, filter_others hfirst, filter_others hlast,
      (filter_about hsection).1, List.nil_append, List.append_nil]

end Reader

end

/-! ### A reader of single lines -/

def parsePair (line : Line) : Option (List (Entry Nat)) :=
  let key := strip (line.takeWhile (· ≠ '='))
  let value := strip ((line.dropWhile (· ≠ '=')).drop 1)
  if key ≠ [] && value ≠ [] && value.all Char.isDigit then
    some [.pair [String.ofList key] (Nat.ofDigitChars 10 value 0)]
  else none

def parseLine (line : Line) : Option (List (Entry Nat)) :=
  match strip line with
  | [] => some []
  | '#' :: _ => some []
  | _ =>
    match sectionName line with
    | some name => some [.header [name]]
    | none => parsePair line

def parseText (text : List Char) : Option (List (Entry Nat)) :=
  ((splitInclusive text).mapM parseLine).map List.flatten

def recorderOf : List (Statement Nat) → Option RecorderSection
  | [] => some ⟨10, none⟩
  | [_, (["recorder", "retain_days"], some n)] => some ⟨n, none⟩
  | [_, (["recorder", "retain_days"], some n), (["recorder", "summary_days"], some days)] =>
    some ⟨n, some days⟩
  | _ => none

lemma parseText_whole {whole : List Line} (hwhole : ∀ line ∈ whole, IsLine '\n' line)
    (rest : List Char) : parseText (whole.flatten ++ rest) =
      (whole.mapM parseLine).bind fun said => (parseText rest).map (said.flatten ++ ·) := by
  rw [parseText, splitInclusive_lines hwhole, List.mapM_append, parseText]
  cases whole.mapM parseLine with
  | none => rfl
  | some said =>
    cases (splitInclusive rest).mapM parseLine with
    | none => rfl
    | some later => simp

lemma takeWhile_equals {key : Line} (h : '=' ∉ key) (value : Line) :
    (key ++ '=' :: value).takeWhile (· ≠ '=') = key ∧
      ((key ++ '=' :: value).dropWhile (· ≠ '=')).drop 1 = value := by
  have hkey : ∀ c ∈ key, decide (c ≠ '=') = true := fun c hc => by
    rw [decide_eq_true_eq]
    rintro rfl
    exact h hc
  rw [List.takeWhile_append_of_pos hkey, List.dropWhile_append_of_pos hkey]
  simp

lemma parsePair_newline (line : Line) : parsePair (line ++ ['\n']) = parsePair line := by
  by_cases h : '=' ∈ line
  · obtain ⟨key, value, rfl, hkey⟩ := List.eq_append_cons_of_mem h
    rw [List.append_assoc, List.cons_append, parsePair, parsePair, (takeWhile_equals hkey _).1,
      (takeWhile_equals hkey _).2, (takeWhile_equals hkey _).1, (takeWhile_equals hkey _).2,
      (strip_space (by decide) value).2]
  · have hline : ∀ c ∈ line, c ≠ '=' := fun c hc heq => h (heq ▸ hc)
    have hdrop : line.dropWhile (· ≠ '=') = [] := by
      simpa using hline
    have hdropEnd : (line ++ ['\n']).dropWhile (· ≠ '=') = [] := by
      rw [List.dropWhile_append_of_pos (by simpa using hline)]
      decide
    rw [parsePair, parsePair, hdrop, hdropEnd]
    simp [strip]

lemma isSlugChar_solid {c : Char} (h : isSlugChar c = true) :
    isWhitespace c = false ∧ c ≠ '[' ∧ c ≠ '#' ∧ c ≠ '=' ∧ c ≠ '\n' := by
  have hword : (97 ≤ c.toNat ∧ c.toNat ≤ 122) ∨ (48 ≤ c.toNat ∧ c.toNat ≤ 57) ∨ c.toNat = 95 := by
    simp only [isSlugChar, Bool.or_eq_true, Bool.and_eq_true, decide_eq_true_eq, beq_iff_eq] at h
    rcases h with (h | h) | h
    · exact .inl ⟨Char.le_def.mp h.1, Char.le_def.mp h.2⟩
    · exact .inr (.inl ⟨Char.le_def.mp h.1, Char.le_def.mp h.2⟩)
    · exact .inr (.inr (by rw [h]; rfl))
  refine ⟨?_, ?_, ?_, ?_, ?_⟩
  · simp [isWhitespace]
    omega
  all_goals
    rintro rfl
    revert hword
    decide

lemma isDigit_solid {c : Char} (h : c.isDigit = true) : isWhitespace c = false := by
  simp only [Char.isDigit, Bool.and_eq_true, decide_eq_true_eq] at h
  have hslug : isSlugChar c = true := by
    simp only [isSlugChar, Bool.or_eq_true, Bool.and_eq_true, decide_eq_true_eq]
    exact .inl (.inr ⟨Char.le_def.mpr h.1, Char.le_def.mpr h.2⟩)
  exact (isSlugChar_solid hslug).1

lemma pairLine_parsed {key : String} (hkey : key ≠ "")
    (hslug : ∀ c ∈ key.toList, isSlugChar c = true) (n : Nat) :
    parseLine (pairLine key n) = some [.pair [key] n] := by
  have hsolid : ∀ c ∈ key.toList, isWhitespace c = false := fun c hc =>
    (isSlugChar_solid (hslug c hc)).1
  have hdigits : ∀ c ∈ Nat.toDigits 10 n, c.isDigit = true := fun c hc =>
    Nat.isDigit_of_mem_toDigits (by decide) (by decide) hc
  have hvalue : strip (' ' :: (Nat.toDigits 10 n ++ ['\n'])) = Nat.toDigits 10 n := by
    rw [(strip_space (by decide) _).1, (strip_space (by decide) _).2]
    exact strip_solid fun c hc => isDigit_solid (hdigits c hc)
  have hkeyLine : strip (key.toList ++ [' ']) = key.toList := by
    rw [(strip_space (by decide) _).2, strip_solid hsolid]
  have hequals : '=' ∉ key.toList ++ [' '] := by
    simpa using fun hmem => (isSlugChar_solid (hslug _ hmem)).2.2.2.1 rfl
  have hline : pairLine key n =
      (key.toList ++ [' ']) ++ '=' :: (' ' :: (Nat.toDigits 10 n ++ ['\n'])) := by
    simp [pairLine]
  have hpair : parsePair (pairLine key n) = some [.pair [key] n] := by
    rw [hline, parsePair, (takeWhile_equals hequals _).1, (takeWhile_equals hequals _).2, hvalue,
      hkeyLine]
    have hne : Nat.toDigits 10 n ≠ [] := Nat.toDigits_ne_nil
    have hall : (Nat.toDigits 10 n).all Char.isDigit = true := List.all_eq_true.mpr hdigits
    simp [hkey, hne, hall, Nat.ofDigitChars_ten_toDigits]
  cases hchars : key.toList with
  | nil => exact absurd (String.toList_eq_nil_iff.mp hchars) hkey
  | cons c rest =>
    obtain ⟨hspace, hopen, hcomment, -⟩ := isSlugChar_solid (hslug c (by simp [hchars]))
    have hfirst : pairLine key n = c :: (rest ++ " = ".toList ++ Nat.toDigits 10 n ++ ['\n']) := by
      simp [pairLine, hchars]
    rw [parseLine, hpair, hfirst, strip_cons hspace, sectionName_eq_none hspace hopen]
    split
    · next heq => cases heq
    · next heq => exact absurd (List.cons.inj heq).1 hcomment
    · rfl

lemma parseLine_newline (line : Line) : parseLine (line ++ ['\n']) = parseLine line := by
  rw [parseLine, parseLine, (strip_space (by decide) line).2, sectionName_newline,
    parsePair_newline]

def lineReader : Reader Nat (List (Statement Nat)) where
  parse := parseText
  number n := n
  others all := some ([], all)
  recorder := recorderOf
  parse_nil := rfl
  parse_append := by
    intro first second entries later hfirst hsecond
    have hwhole := splitInclusive_whole (.inr ⟨first, rfl⟩)
    have hsplit := parseText_whole hwhole second
    have hfront := parseText_whole hwhole []
    rw [List.append_nil] at hfront
    rw [splitInclusive_flatten] at hsplit hfront
    rw [hfront] at hfirst
    rw [hsplit, hsecond]
    cases hsaid : (splitInclusive (first ++ ['\n'])).mapM parseLine with
    | none => simp [hsaid] at hfirst
    | some said =>
      have hflat : said.flatten = entries := by
        rw [hsaid] at hfirst
        simpa [parseText, splitInclusive] using hfirst
      simp [hflat]
  parse_newline := by
    intro text entries h
    obtain ⟨whole, rest, hwhole, hrest, rfl⟩ := exists_whole text
    rw [List.append_assoc, parseText_whole hwhole]
    rw [parseText_whole hwhole] at h
    have hsame : parseText (rest ++ ['\n']) = parseText rest := by
      have hline := splitInclusive_line ⟨rest, hrest, rfl⟩ []
      rw [List.append_nil] at hline
      rw [parseText, parseText, hline]
      by_cases hnil : rest = []
      · rw [hnil]
        decide
      · rw [splitInclusive_rest hrest hnil]
        simp [splitInclusive, parseLine_newline]
    rw [hsame, h]
  parse_header := by decide
  parse_pair := by
    intro key n hkey hslug _
    have hline := splitInclusive_line (pairLine_isLine (fun hmem =>
      (isSlugChar_solid (hslug _ hmem)).2.2.2.2 rfl) n) []
    rw [List.append_nil] at hline
    rw [parseText, hline]
    simp [splitInclusive, pairLine_parsed hkey hslug]
  recorder_statements := by
    rintro ⟨retain, _ | days⟩ - <;> rfl

def tidyUpdates : String :=
  "# mine\n[server]\nport = 8480\n[recorder]\nretain_days = 5\n[updates]\n# how\nhour = 3"

lemma tidyUpdates_tidy : lineReader.Tidy tidyUpdates := by
  refine ⟨["# mine\n".toList, "[server]\n".toList, "port = 8480\n".toList],
    ["[recorder]\n".toList, "retain_days = 5\n".toList],
    ["[updates]\n".toList, "# how\n".toList, "hour = 3".toList],
    [.header ["server"], .pair ["port"] 8480], [.header ["updates"], .pair ["hour"] 3], ?_⟩
  refine ⟨⟨?_, ?_, ?_, ?_, ?_, ?_⟩, ?_, ?_, ?_, ?_, ?_, ?_⟩
  · decide
  · decide
  · decide
  · decide
  · decide
  · decide
  · decide
  · decide
  · decide
  · decide
  · intro line hline
    have heq : line = "retain_days = 5\n".toList := by simpa using hline
    exact ⟨["retain_days"], 5, by rw [heq]; decide⟩
  · decide

theorem replaced_tidyUpdates : ∃ settings, lineReader.read tidyUpdates = some settings ∧
    lineReader.Replaced tidyUpdates ⟨14, some 365⟩ settings := by
  have hread : ∃ settings, lineReader.read tidyUpdates = some settings :=
    Option.isSome_iff_exists.mp (by decide)
  obtain ⟨settings, hread⟩ := hread
  exact ⟨settings, hread, Reader.replaced_of_tidy lineReader hread (by decide) ⟨by decide, by simp⟩
    tidyUpdates_tidy⟩

def unsaidUpdates : String := "[recorder]\nretain_days = 5\n# how updates go\n[updates]\n"

theorem not_replaced_comment : ¬ ∀ (text : String) (part : RecorderSection)
    (settings : IroriSettings (List (Statement Nat))), lineReader.read text = some settings →
    part.check = .ok () → part.InRange → lineReader.Replaced text part settings := by
  intro h
  have hread : ∃ settings, lineReader.read unsaidUpdates = some settings :=
    Option.isSome_iff_exists.mp (by decide)
  obtain ⟨settings, hread⟩ := hread
  have hkept := (h unsaidUpdates ⟨14, none⟩ settings hread rfl ⟨by decide, by simp⟩).kept
  have hmem : bare "# how updates go\n".toList ∈
      (splitInclusive (upsertRecorder unsaidUpdates ⟨14, none⟩).toList).map bare :=
    hkept.subset (by decide)
  exact absurd hmem (by decide)

end Irori.Config
