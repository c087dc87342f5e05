import Irori.Proofs.Splicing
import Irori.Zigbee.Config
import Mathlib.Tactic

/-!
# The network keeps its identity

A `configuration.yaml` as Zigbee2MQTT writes it: sections at the margin, and an `advanced` block of
keys, each with what is nested under it. Where its first line ending in `advanced:` is that block's,
a start puts the block into the new file but for the keys the settings decide.
-/

namespace Irori.Zigbee.Proofs

open Config (splitInclusive splitInclusive_lines)
open Lines (IsLine)

abbrev Line := List Char

def ended (line : Line) : Line := line ++ ['\n']

def unlines (lines : List Line) : List Char := (lines.map ended).flatten

lemma unlines_append (lines lines' : List Line) :
    unlines (lines ++ lines') = unlines lines ++ unlines lines' := by simp [unlines]

lemma unlines_cons (line : Line) (lines : List Line) :
    unlines (line :: lines) = ended line ++ unlines lines := rfl

lemma splitInclusive_unlines {lines : List Line} (h : ∀ line ∈ lines, '\n' ∉ line) :
    splitInclusive (unlines lines) = lines.map ended := by
  have hlines : ∀ line ∈ lines.map ended, IsLine '\n' line := by
    intro line hline
    obtain ⟨body, hbody, rfl⟩ := List.mem_map.1 hline
    exact ⟨body, h body hbody, rfl⟩
  simpa [splitInclusive, unlines] using splitInclusive_lines hlines []

/-! ### Finding the block -/

def header : Line := "advanced:".toList

def marker : Line := "advanced:\n".toList

lemma ended_prefix {line line' : Line} (hline : '\n' ∉ line) (hline' : '\n' ∉ line')
    (rest : List Char) : ended line <+: ended line' ++ rest ↔ line = line' := by
  constructor
  · intro h
    induction line generalizing line' with
    | nil =>
      cases line' with
      | nil => rfl
      | cons c line' =>
        have hc := (List.cons_prefix_cons.1 h).1
        exact absurd (hc ▸ List.mem_cons_self) hline'
    | cons c line ih =>
      cases line' with
      | nil =>
        have hc := (List.cons_prefix_cons.1 h).1
        exact absurd (by simp [hc]) hline
      | cons d line' =>
        obtain ⟨rfl, htail⟩ := List.cons_prefix_cons.1 h
        rw [List.mem_cons, not_or] at hline hline'
        rw [ih hline.2 hline'.2 htail]
  · rintro rfl
    exact List.prefix_append _ _

lemma marker_eq : marker = ended header := rfl

lemma afterMarker_line {line : Line} (hline : '\n' ∉ line) (rest : List Char) :
    afterMarker marker (ended line ++ rest) =
      if header <:+ line then some rest else afterMarker marker rest := by
  induction line with
  | nil => rfl
  | cons c line ih =>
    have hhead : '\n' ∉ header := by decide
    have hword := ended_prefix hhead hline rest
    have htail := ih fun h => hline (List.mem_cons_of_mem _ h)
    have hsuffix : header <:+ c :: line ↔ header = c :: line ∨ header <:+ line :=
      List.suffix_cons_iff
    have hstep : afterMarker marker (ended (c :: line) ++ rest) =
        if marker.isPrefixOf (ended (c :: line) ++ rest)
        then some ((ended (c :: line) ++ rest).drop marker.length)
        else afterMarker marker (ended line ++ rest) := rfl
    rw [hstep]
    by_cases hcase : header = c :: line
    · have hfound : marker.isPrefixOf (ended (c :: line) ++ rest) = true :=
        List.isPrefixOf_iff_prefix.2 (hword.2 hcase)
      rw [if_pos hfound, if_pos (hsuffix.2 (.inl hcase)), ← hcase, marker_eq, List.drop_left]
    · have hnot : ¬marker.isPrefixOf (ended (c :: line) ++ rest) = true := fun h =>
        hcase (hword.1 (List.isPrefixOf_iff_prefix.1 h))
      rw [if_neg hnot, htail]
      by_cases hends : header <:+ line
      · rw [if_pos hends, if_pos (hsuffix.2 (.inr hends))]
      · rw [if_neg hends, if_neg fun h => (hsuffix.1 h).elim hcase hends]

lemma afterMarker_lines {lines : List Line} (hlines : ∀ line ∈ lines, '\n' ∉ line)
    (hends : ∀ line ∈ lines, ¬header <:+ line) (rest : List Char) :
    afterMarker marker (unlines lines ++ rest) = afterMarker marker rest := by
  induction lines with
  | nil => rfl
  | cons line lines ih =>
    rw [unlines_cons, List.append_assoc, afterMarker_line (hlines line List.mem_cons_self),
      if_neg (hends line List.mem_cons_self)]
    exact ih (fun l hl => hlines l (List.mem_cons_of_mem _ hl))
      fun l hl => hends l (List.mem_cons_of_mem _ hl)

def Indented (line : Line) : Prop := line = [] ∨ "  ".toList <+: line

lemma inBlock_ended {line : Line} (hline : '\n' ∉ line) :
    inBlock (ended line) = true ↔ Indented line := by
  have hword : "  ".toList <+: ended line ↔ "  ".toList <+: line := by
    unfold ended
    rw [List.prefix_concat_iff, or_iff_right]
    intro h
    have hlast : ' ' = '\n' := by simpa using congrArg List.getLast? h
    exact absurd hlast (by decide)
  have hdrop : (ended line).rdropWhile (· = '\n') = line := by
    unfold ended
    rw [List.rdropWhile_concat_pos _ _ _ (by simp)]
    rcases List.eq_nil_or_concat line with rfl | ⟨body, c, rfl⟩
    · rfl
    · have hc : c ≠ '\n' := by
        rintro rfl
        simp at hline
      rw [List.concat_eq_append]
      refine List.rdropWhile_concat_neg _ _ _ ?_
      simpa using hc
  unfold inBlock Indented
  rw [hdrop, Bool.or_eq_true, List.isEmpty_iff, List.isPrefixOf_iff_prefix, hword]

lemma takeWhile_inBlock {body after : List Line} (hbody : ∀ line ∈ body, '\n' ∉ line)
    (hindented : ∀ line ∈ body, Indented line) (hafter : ∀ line ∈ after, '\n' ∉ line)
    (hmargin : ∀ line, after.head? = some line → ¬Indented line) :
    ((body ++ after).map ended).takeWhile inBlock = body.map ended := by
  rw [List.map_append, List.takeWhile_append_of_pos]
  · cases after with
    | nil => simp
    | cons line after =>
      have hline : ¬inBlock (ended line) = true := fun h =>
        hmargin line rfl ((inBlock_ended (hafter line List.mem_cons_self)).1 h)
      simp [hline]
  · intro line hline
    obtain ⟨line, hmem, rfl⟩ := List.mem_map.1 hline
    exact (inBlock_ended (hbody line hmem)).2 (hindented line hmem)

/-! ### The block's entries -/

structure Entry where
  key : Line
  value : Line
  nested : List Line

namespace Entry

def head (entry : Entry) : Line := "  ".toList ++ entry.key ++ ':' :: entry.value

def lines (entry : Entry) : List Line := entry.head :: entry.nested

end Entry

/-- A line nested under a key: indented deeper, or blank. -/
def Nested (line : Line) : Prop := line = [] ∨ line = "  ".toList ∨ "   ".toList <+: line

/-- An entry as it is written: a list or a mapping it holds is nested under it. -/
structure Entry.WellFormed (entry : Entry) : Prop where
  key_ne : entry.key ≠ []
  key_head : ∀ c, entry.key.head? = some c → isWhitespace c = false
  key_chars : ':' ∉ entry.key ∧ '\n' ∉ entry.key
  value_chars : '\n' ∉ entry.value
  nested_chars : ∀ line ∈ entry.nested, '\n' ∉ line
  nested : ∀ line ∈ entry.nested, Nested line

def said (lines : List Line) : List Line := lines.filter fun line => !line.all isWhitespace

def Entry.tidy (entry : Entry) : Entry := { entry with nested := said entry.nested }

def linesOf (entries : List Entry) : List Line := (entries.map Entry.lines).flatten

def undecided (decided : List Line) (entries : List Entry) : List Entry :=
  entries.filter fun entry => !decided.contains entry.key

lemma ended_blank (line : Line) : (ended line).all isWhitespace = line.all isWhitespace := by
  have hend : isWhitespace '\n' = true := by decide
  simp [ended, hend]

lemma keyOf_indented (rest : List Char) : keyOf (' ' :: ' ' :: rest) =
    if rest.contains ':' && !(rest.takeWhile (· ≠ ':')).isEmpty &&
      !(rest.takeWhile (· ≠ ':')).head?.any isWhitespace
    then some (rest.takeWhile (· ≠ ':')) else none := rfl

lemma keyOf_head {entry : Entry} (h : entry.WellFormed) :
    keyOf (ended entry.head) = some entry.key := by
  have hkey : (entry.key ++ ':' :: (entry.value ++ ['\n'])).takeWhile (· ≠ ':') = entry.key := by
    rw [List.takeWhile_append_of_pos]
    · simp
    · intro c hc
      have hne : c ≠ ':' := by
        rintro rfl
        exact h.key_chars.1 hc
      simpa using hne
  have hline : ended entry.head = ' ' :: ' ' :: (entry.key ++ ':' :: (entry.value ++ ['\n'])) := by
    simp [ended, Entry.head]
  have hempty : entry.key.isEmpty = false := List.isEmpty_eq_false_iff.2 h.key_ne
  have hspace : entry.key.head?.any isWhitespace = false := by
    cases hhead : entry.key.head? with
    | none => rfl
    | some c => exact h.key_head c hhead
  rw [hline, keyOf_indented, hkey, hempty, hspace]
  simp

lemma keyOf_nested {line : Line} (h : Nested line) : keyOf (ended line) = none := by
  obtain rfl | rfl | ⟨rest, rfl⟩ := h
  · rfl
  · rfl
  · have hline : ended ("   ".toList ++ rest) = ' ' :: ' ' :: ' ' :: (rest ++ ['\n']) := rfl
    rw [hline, keyOf_indented]
    have hkey : (' ' :: (rest ++ ['\n'])).takeWhile (· ≠ ':') =
        ' ' :: (rest ++ ['\n']).takeWhile (· ≠ ':') := List.takeWhile_cons_of_pos (by decide)
    have hspace : isWhitespace ' ' = true := by decide
    rw [hkey]
    simp [hspace]

lemma kept_of_none {decided : List Line} {line : Line} (h : keyOf line = none) (replacing : Bool)
    (lines : List Line) : kept decided replacing (line :: lines) =
      if !replacing && !line.all isWhitespace then line :: kept decided replacing lines
      else kept decided replacing lines := by rw [kept, h]

lemma kept_of_some {decided : List Line} {line key : Line} (h : keyOf line = some key)
    (replacing : Bool) (lines : List Line) : kept decided replacing (line :: lines) =
      if decided.contains key then kept decided true lines
      else line :: kept decided false lines := by rw [kept, h]

lemma kept_nested {decided : List Line} {lines : List Line} (h : ∀ line ∈ lines, Nested line)
    (replacing : Bool) (rest : List Line) :
    kept decided replacing (lines.map ended ++ rest) =
      (if replacing then [] else (said lines).map ended) ++ kept decided replacing rest := by
  induction lines with
  | nil => cases replacing <;> rfl
  | cons line lines ih =>
    have htail := ih fun l hl => h l (List.mem_cons_of_mem _ hl)
    rw [List.map_cons, List.cons_append, kept_of_none (keyOf_nested (h line List.mem_cons_self)),
      ended_blank, htail]
    cases replacing with
    | true => simp
    | false =>
      by_cases hblank : line.all isWhitespace = true
      · simp [said, hblank]
      · simp [said, hblank]

lemma kept_entry {decided : List Line} {entry : Entry} (h : entry.WellFormed) (replacing : Bool)
    (rest : List Line) :
    kept decided replacing (entry.lines.map ended ++ rest) =
      if decided.contains entry.key then kept decided true rest
      else entry.tidy.lines.map ended ++ kept decided false rest := by
  unfold Entry.lines
  rw [List.map_cons, List.cons_append, kept_of_some (keyOf_head h), kept_nested h.nested,
    kept_nested h.nested]
  rfl

lemma kept_entries {decided : List Line} {entries : List Entry}
    (h : ∀ entry ∈ entries, entry.WellFormed) (replacing : Bool) :
    kept decided replacing ((linesOf entries).map ended) =
      (linesOf ((undecided decided entries).map Entry.tidy)).map ended := by
  induction entries generalizing replacing with
  | nil => rfl
  | cons entry entries ih =>
    have htail := ih fun e he => h e (List.mem_cons_of_mem _ he)
    have hlines : linesOf (entry :: entries) = entry.lines ++ linesOf entries := rfl
    rw [hlines, List.map_append, kept_entry (h entry List.mem_cons_self), htail, htail]
    by_cases hcase : decided.contains entry.key = true
    · have hrest : undecided decided (entry :: entries) = undecided decided entries :=
        List.filter_cons_of_neg (by rw [hcase]; decide)
      rw [if_pos hcase, hrest]
    · have hrest : undecided decided (entry :: entries) = entry :: undecided decided entries :=
        List.filter_cons_of_pos (by rw [Bool.not_eq_true] at hcase; rw [hcase]; rfl)
      rw [if_neg hcase, hrest, ← List.map_append]
      rfl

/-! ### A file -/

structure Block where
  leading : List Line
  entries : List Entry

def Block.lines (block : Block) : List Line := block.leading ++ linesOf block.entries

/-- A file by its lines: what is before its `advanced` section, that section, and what is after. -/
structure File where
  before : List Line
  advanced : Option Block
  after : List Line

namespace File

def lines (file : File) : List Line :=
  file.before ++ (match file.advanced with
    | none => []
    | some block => header :: block.lines) ++ file.after

def render (file : File) : List Char := unlines file.lines

/-- What the `advanced` section says. -/
def mapping (file : File) : List Entry :=
  match file.advanced with
  | none => []
  | some block => block.entries.map Entry.tidy

/-- A file in the block style Zigbee2MQTT writes: after the block comes a key at the margin. -/
structure Styled (file : File) : Prop where
  before : ∀ line ∈ file.before, '\n' ∉ line
  after : ∀ line ∈ file.after, '\n' ∉ line
  once : header ∉ file.before ∧ header ∉ file.after
  leading : ∀ block, file.advanced = some block → ∀ line ∈ block.leading,
    line = [] ∨ line = "  ".toList
  entries : ∀ block, file.advanced = some block → ∀ entry ∈ block.entries, entry.WellFormed
  keys : (file.mapping.map Entry.key).Nodup
  margin : ∀ line, file.after.head? = some line → ¬Indented line

/-- No line before the block ends like its header; where there is no block, none does at all. -/
def Unmistaken (file : File) : Prop :=
  match file.advanced with
  | none => ∀ line ∈ file.before ++ file.after, ¬header <:+ line
  | some _ => ∀ line ∈ file.before, ¬header <:+ line

end File

lemma head_chars {entry : Entry} (h : entry.WellFormed) : '\n' ∉ entry.head := by
  simp [Entry.head, h.key_chars.2, h.value_chars]

lemma nested_indented {line : Line} (h : Nested line) : Indented line := by
  obtain rfl | rfl | ⟨rest, rfl⟩ := h
  · exact .inl rfl
  · exact .inr (List.prefix_refl _)
  · exact .inr ⟨' ' :: rest, rfl⟩

lemma linesOf_indented {entries : List Entry} (h : ∀ entry ∈ entries, entry.WellFormed) :
    ∀ line ∈ linesOf entries, '\n' ∉ line ∧ Indented line := by
  intro line hline
  obtain ⟨lines, hlines, hline⟩ := List.mem_flatten.1 hline
  obtain ⟨entry, hentry, rfl⟩ := List.mem_map.1 hlines
  have hformed := h entry hentry
  rcases List.mem_cons.1 hline with rfl | hline
  · refine ⟨head_chars hformed, .inr ⟨entry.key ++ ':' :: entry.value, ?_⟩⟩
    simp [Entry.head]
  · exact ⟨hformed.nested_chars line hline, nested_indented (hformed.nested line hline)⟩

lemma block_indented {block : Block} (hleading : ∀ line ∈ block.leading,
    line = [] ∨ line = "  ".toList) (hentries : ∀ entry ∈ block.entries, entry.WellFormed) :
    ∀ line ∈ block.lines, '\n' ∉ line ∧ Indented line := by
  intro line hline
  rcases List.mem_append.1 hline with hline | hline
  · rcases hleading line hline with rfl | rfl
    · exact ⟨by decide, .inl rfl⟩
    · exact ⟨by decide, .inr (List.prefix_refl _)⟩
  · exact linesOf_indented hentries line hline

lemma carriedForward_render {file : File} (h : file.Styled) (hunmistaken : file.Unmistaken)
    (decided : List Line) :
    carriedForward (existingAdvancedBlock file.render) decided =
      unlines (linesOf (undecided decided file.mapping)) := by
  unfold existingAdvancedBlock
  have hmarker : "advanced:\n".toList = marker := rfl
  rw [hmarker]
  unfold File.render File.lines File.mapping
  cases hadvanced : file.advanced with
  | none =>
    have hends : ∀ line ∈ file.before ++ file.after, ¬header <:+ line := by
      unfold File.Unmistaken at hunmistaken
      rwa [hadvanced] at hunmistaken
    have hlines : ∀ line ∈ file.before ++ file.after, '\n' ∉ line := fun line hline =>
      (List.mem_append.1 hline).elim (h.before line) (h.after line)
    have hfound : afterMarker marker (unlines (file.before ++ file.after)) = none := by
      rw [← List.append_nil (unlines _), afterMarker_lines hlines hends]
      rfl
    simp only [List.append_nil]
    rw [hfound]
    rfl
  | some block =>
    have hends : ∀ line ∈ file.before, ¬header <:+ line := by
      unfold File.Unmistaken at hunmistaken
      rwa [hadvanced] at hunmistaken
    have hentries := h.entries block hadvanced
    have hblock := block_indented (h.leading block hadvanced) hentries
    have hfound : afterMarker marker
        (unlines (file.before ++ header :: block.lines ++ file.after)) =
        some (unlines (block.lines ++ file.after)) := by
      rw [List.append_assoc, unlines_append, afterMarker_lines h.before hends, List.cons_append,
        unlines_cons, afterMarker_line (by decide), if_pos (List.suffix_refl _)]
    have hsplit : splitInclusive (unlines (block.lines ++ file.after)) =
        (block.lines ++ file.after).map ended :=
      splitInclusive_unlines fun line hline =>
        (List.mem_append.1 hline).elim (fun hline => (hblock line hline).1) (h.after line)
    have htake : ((block.lines ++ file.after).map ended).takeWhile inBlock =
        block.lines.map ended :=
      takeWhile_inBlock (fun line hline => (hblock line hline).1)
        (fun line hline => (hblock line hline).2) h.after h.margin
    dsimp only
    rw [hfound]
    dsimp only
    rw [hsplit, htake]
    have hkept : kept decided false (block.lines.map ended) =
        (linesOf (undecided decided (block.entries.map Entry.tidy))).map ended := by
      have hleading : ∀ line ∈ block.leading, Nested line := fun line hline =>
        (h.leading block hadvanced line hline).elim .inl fun h => .inr (.inl h)
      have hblank : said block.leading = [] := List.filter_eq_nil_iff.2 fun line hline => by
        rcases h.leading block hadvanced line hline with rfl | rfl <;> decide
      have htidy : (undecided decided block.entries).map Entry.tidy =
          undecided decided (block.entries.map Entry.tidy) := by
        unfold undecided
        rw [List.filter_map]
        rfl
      unfold Block.lines
      rw [List.map_append, kept_nested hleading, kept_entries hentries, hblank, htidy]
      rfl
    split_ifs with hempty
    · -- a block that says nothing has no entries
      have hnone : block.entries = [] := by
        rcases List.eq_nil_or_concat block.entries with hnil | ⟨entries, entry, hlast⟩
        · exact hnil
        · have hmem : ':' ∈ (block.lines.map ended).flatten := by
            refine List.mem_flatten.2 ⟨ended entry.head, ?_, by simp [ended, Entry.head]⟩
            refine List.mem_map_of_mem (List.mem_append_right _ ?_)
            exact List.mem_flatten.2 ⟨entry.lines,
              List.mem_map_of_mem (by simp [hlast]), List.mem_cons_self⟩
          exact absurd (List.all_eq_true.1 hempty ':' hmem) (by decide)
      rw [hnone]
      rfl
    · have hwhole : splitInclusive (block.lines.map ended).flatten = block.lines.map ended :=
        splitInclusive_unlines fun line hline => (hblock line hline).1
      unfold carriedForward
      dsimp only
      rw [hwhole, hkept]
      rfl

/-! ### The file that is written -/

/-- The lines before the block, as they are generated. -/
def opening (settings : Settings) : List Line :=
  ["homeassistant:".toList, "  enabled: true".toList,
    "  experimental_event_entities: true".toList, "mqtt:".toList,
    "  server: \"mqtt://127.0.0.1:".toList ++ digits settings.brokerPort.toNat ++ ['"'],
    "  base_topic: \"zigbee2mqtt\"".toList, "serial:".toList,
    "  port: \"".toList ++ escape settings.serialPort ++ ['"'],
    "  adapter: ".toList ++ settings.adapter.asStr.toList, "frontend:".toList,
    "  enabled: false".toList, "permit_join: false".toList]

def entryOf (decided : Decided) : Entry := ⟨decided.key, ' ' :: decided.value, []⟩

def fileOf (settings : Settings) (decided : List Decided) (carried : List Entry) : File :=
  let entries := decided.map entryOf ++ carried
  ⟨opening settings, if entries = [] then none else some ⟨[], entries⟩, []⟩

lemma decided_lines (decided : List Decided) :
    (decided.map Decided.line).flatten = unlines (linesOf (decided.map entryOf)) := by
  induction decided with
  | nil => rfl
  | cons first decided ih =>
    have hline : first.line = ended (entryOf first).head := by
      simp [Decided.line, ended, Entry.head, entryOf]
    rw [List.map_cons, List.flatten_cons, ih, hline]
    rfl

lemma unlines_linesOf_nil {entries : List Entry} :
    unlines (linesOf entries) = [] ↔ entries = [] := by
  cases entries with
  | nil => simp [unlines, linesOf]
  | cons entry entries => simp [unlines, linesOf, Entry.lines, ended]

lemma generate_eq {settings : Settings} {decided : List Decided} {carried : List Entry}
    {existing : Option (List Char)} (hdecided : decidedBy settings = .ok decided)
    (hcarried : carriedForward existing (decided.map Decided.key) = unlines (linesOf carried)) :
    generate settings baseTopic existing = .ok (fileOf settings decided carried).render := by
  have hopening : "homeassistant:\n  enabled: true\n  experimental_event_entities: true\n".toList ++
      "mqtt:\n  server: \"mqtt://127.0.0.1:".toList ++ digits settings.brokerPort.toNat ++
      "\"\n  base_topic: \"".toList ++ escape baseTopic ++ "\"\n".toList ++
      "serial:\n  port: \"".toList ++ escape settings.serialPort ++ "\"\n  adapter: ".toList ++
      settings.adapter.asStr.toList ++ "\n".toList ++
      "frontend:\n  enabled: false\n".toList ++ "permit_join: false\n".toList =
      unlines (opening settings) := by
    have hhome : "homeassistant:\n  enabled: true\n  experimental_event_entities: true\n".toList =
        unlines ["homeassistant:".toList, "  enabled: true".toList,
          "  experimental_event_entities: true".toList] := by decide +kernel
    have hmqtt : "mqtt:\n  server: \"mqtt://127.0.0.1:".toList =
        ended "mqtt:".toList ++ "  server: \"mqtt://127.0.0.1:".toList := by decide +kernel
    have hbase : "\"\n  base_topic: \"".toList ++ escape baseTopic ++ "\"\n".toList ++
        "serial:\n  port: \"".toList = '"' :: '\n' ::
          (ended "  base_topic: \"zigbee2mqtt\"".toList ++ (ended "serial:".toList ++ "  port: \"".toList)) := by decide +kernel
    have hserial : "\"\n  adapter: ".toList = '"' :: '\n' :: "  adapter: ".toList := by
      decide +kernel
    have hrest : "\n".toList ++ "frontend:\n  enabled: false\n".toList ++
        "permit_join: false\n".toList = '\n' :: unlines ["frontend:".toList,
          "  enabled: false".toList, "permit_join: false".toList] := by decide +kernel
    simp only [List.append_assoc] at hbase hrest ⊢
    rw [hhome, hmqtt, hrest, hserial]
    have hbase' (text : List Char) : "\"\n  base_topic: \"".toList ++ (escape baseTopic ++
        ("\"\n".toList ++ ("serial:\n  port: \"".toList ++ text))) = '"' :: '\n' ::
          (ended "  base_topic: \"zigbee2mqtt\"".toList ++
            (ended "serial:".toList ++ ("  port: \"".toList ++ text))) := by
      simpa only [List.append_assoc, List.cons_append] using congrArg (· ++ text) hbase
    rw [hbase']
    simp only [unlines, opening, ended, List.map_cons, List.map_nil, List.flatten_cons,
      List.flatten_nil, List.append_assoc, List.append_nil, List.cons_append, List.nil_append]
  have hblock : (decided.map Decided.line).flatten ++
      carriedForward existing (decided.map Decided.key) =
      unlines (linesOf (decided.map entryOf ++ carried)) := by
    rw [decided_lines, hcarried, ← unlines_append]
    simp [linesOf]
  unfold generate
  rw [hdecided, hopening]
  refine congrArg Except.ok ?_
  rw [hblock]
  unfold fileOf File.render File.lines
  dsimp only
  by_cases hentries : decided.map entryOf ++ carried = []
  · rw [hentries]
    simp [unlines, linesOf]
  · have hsome : (unlines (linesOf (decided.map entryOf ++ carried))).isEmpty = false :=
      List.isEmpty_eq_false_iff.2 fun h => hentries (unlines_linesOf_nil.1 h)
    rw [hsome, if_neg hentries]
    simp only [Bool.false_eq_true, if_false, List.append_nil]
    rw [unlines_append, unlines_cons, List.append_assoc]
    rfl

lemma digits_chars (n : ℕ) : '\n' ∉ digits n := by
  intro h
  have hrepr : digits n = Nat.toDigits 10 n := Nat.toList_repr
  rw [hrepr] at h
  have hdigit := Nat.isDigit_of_mem_toDigits (by decide) (by decide) h
  exact absurd hdigit (by decide)

lemma escape_chars {text : List Char} (h : '\n' ∉ text) : '\n' ∉ escape text := by
  have hpass (special : Char) (text : List Char) (hspecial : special ≠ '\n') (h : '\n' ∉ text) :
      '\n' ∉ text.flatMap fun c => if c = special then ['\\', special] else [c] := by
    intro hmem
    obtain ⟨c, hc, hmem⟩ := List.mem_flatMap.1 hmem
    split_ifs at hmem
    · simp [hspecial.symm] at hmem
    · rw [List.mem_singleton.1 hmem] at h
      exact h hc
  exact hpass '"' _ (by decide) (hpass '\\' _ (by decide) h)

lemma not_header {line : Line} {c : Char} (hc : c ≠ ':') : ¬header <:+ line ++ [c] := by
  rintro ⟨before, h⟩
  have hheader : header = "advanced".toList ++ [':'] := rfl
  rw [hheader, ← List.append_assoc] at h
  exact hc (List.cons.inj (List.append_inj' h rfl).2).1.symm

lemma opening_lines {settings : Settings} (hport : '\n' ∉ settings.serialPort) :
    ∀ line ∈ opening settings, '\n' ∉ line ∧ ¬header <:+ line := by
  have hquoted (before middle : List Char) (hbefore : '\n' ∉ before) (hmiddle : '\n' ∉ middle) :
      '\n' ∉ before ++ middle ++ ['"'] ∧ ¬header <:+ before ++ middle ++ ['"'] :=
    ⟨by simp [hbefore, hmiddle], not_header (by decide)⟩
  intro line hline
  simp only [opening, List.mem_cons, List.not_mem_nil, or_false] at hline
  rcases hline with rfl | rfl | rfl | rfl | rfl | rfl | rfl | rfl | rfl | rfl | rfl | rfl
  · decide +kernel
  · decide +kernel
  · decide +kernel
  · decide +kernel
  · exact hquoted _ _ (by decide) (digits_chars _)
  · decide +kernel
  · decide +kernel
  · exact hquoted _ _ (by decide) (escape_chars hport)
  · cases settings.adapter <;> decide +kernel
  · decide +kernel
  · decide +kernel
  · decide +kernel

def settingsKeys : List Line := ["channel".toList, "pan_id".toList, "network_key".toList]

lemma intersperse_chars {lists : List (List Char)} (h : ∀ list ∈ lists, '\n' ∉ list) :
    '\n' ∉ (lists.intersperse ", ".toList).flatten := by
  induction lists with
  | nil => simp
  | cons list lists ih =>
    have hhead := h list List.mem_cons_self
    have htail := ih fun l hl => h l (List.mem_cons_of_mem _ hl)
    cases lists with
    | nil => simpa using hhead
    | cons next lists =>
      rw [List.intersperse_cons_cons, List.flatten_cons, List.flatten_cons, List.mem_append,
        List.mem_append, not_or, not_or]
      exact ⟨hhead, by decide, htail⟩

lemma decidedBy_ok {settings : Settings} {decided : List Decided}
    (h : decidedBy settings = .ok decided) :
    (decided.map Decided.key).Sublist settingsKeys ∧ ∀ d ∈ decided, '\n' ∉ d.value := by
  have hlisted (bytes : List ℕ) :
      '\n' ∉ '[' :: ((bytes.map digits).intersperse ", ".toList).flatten ++ [']'] := by
    have hbytes : ∀ list ∈ bytes.map digits, '\n' ∉ list := fun list hlist => by
      obtain ⟨byte, -, rfl⟩ := List.mem_map.1 hlist
      exact digits_chars byte
    rw [List.cons_append, List.mem_cons, List.mem_append, not_or, not_or]
    exact ⟨by decide, intersperse_chars hbytes, by decide⟩
  -- each part decides its key, or nothing
  have hchannel (asked : Option UInt8) (channel : List Decided)
      (h : decidedChannel asked = .ok channel) :
      channel = [] ∨ ∃ n, channel = [⟨"channel".toList, digits n⟩] := by
    unfold decidedChannel at h
    split at h
    · cases h
      exact .inl rfl
    · split_ifs at h
      cases h
      exact .inr ⟨_, rfl⟩
  have hpanId : decidedPanId settings.panId = [] ∨
      ∃ n, decidedPanId settings.panId = [⟨"pan_id".toList, digits n⟩] := by
    cases settings.panId with
    | none => exact .inl rfl
    | some panId => exact .inr ⟨_, rfl⟩
  have hnetworkKey (asked : Option (List Char)) (networkKey : List Decided)
      (h : decidedNetworkKey asked = .ok networkKey) :
      networkKey = [] ∨ ∃ bytes : List ℕ, networkKey = [⟨"network_key".toList,
        '[' :: ((bytes.map digits).intersperse ", ".toList).flatten ++ [']']⟩] := by
    unfold decidedNetworkKey at h
    split at h
    · cases h
      exact .inl rfl
    · split at h
      · cases h
      · cases h
        exact .inr ⟨_, rfl⟩
  unfold decidedBy at h
  split at h
  · cases h
  · cases h
  rename_i channel networkKey hgotChannel hgotKey
  cases h
  have hpart {part : List Decided} {key value : Line} (h : part = [⟨key, value⟩])
      (hvalue : '\n' ∉ value) :
      (part.map Decided.key).Sublist [key] ∧ ∀ d ∈ part, '\n' ∉ d.value := by
    subst h
    exact ⟨List.Sublist.refl _, by simpa using hvalue⟩
  have hnothing (key : Line) : (([] : List Decided).map Decided.key).Sublist [key] ∧
      ∀ d ∈ ([] : List Decided), '\n' ∉ d.value := ⟨List.nil_sublist _, by simp⟩
  have hfirst : (channel.map Decided.key).Sublist ["channel".toList] ∧
      ∀ d ∈ channel, '\n' ∉ d.value := by
    rcases hchannel _ _ hgotChannel with rfl | ⟨n, h⟩
    · exact hnothing _
    · exact hpart h (digits_chars n)
  have hsecond : ((decidedPanId settings.panId).map Decided.key).Sublist ["pan_id".toList] ∧
      ∀ d ∈ decidedPanId settings.panId, '\n' ∉ d.value := by
    rcases hpanId with h | ⟨n, h⟩
    · rw [h]
      exact hnothing _
    · exact hpart h (digits_chars n)
  have hthird : (networkKey.map Decided.key).Sublist ["network_key".toList] ∧
      ∀ d ∈ networkKey, '\n' ∉ d.value := by
    rcases hnetworkKey _ _ hgotKey with rfl | ⟨bytes, h⟩
    · exact hnothing _
    · exact hpart h (hlisted bytes)
  constructor
  · rw [List.map_append, List.map_append]
    exact (hfirst.1.append hsecond.1).append hthird.1
  · intro d hd
    rcases List.mem_append.1 hd with hd | hd
    · rcases List.mem_append.1 hd with hd | hd
      · exact hfirst.2 d hd
      · exact hsecond.2 d hd
    · exact hthird.2 d hd

lemma entryOf_wellFormed {decided : Decided} (hkey : decided.key ∈ settingsKeys)
    (hvalue : '\n' ∉ decided.value) : (entryOf decided).WellFormed := by
  have hkeys : ∀ key ∈ settingsKeys, key ≠ [] ∧ (∀ c, key.head? = some c → isWhitespace c = false) ∧
      ':' ∉ key ∧ '\n' ∉ key := by
    intro key hkey
    simp only [settingsKeys, List.mem_cons, List.not_mem_nil, or_false] at hkey
    rcases hkey with rfl | rfl | rfl
    · exact ⟨by decide, fun c hc => by cases hc; decide, by decide, by decide⟩
    · exact ⟨by decide, fun c hc => by cases hc; decide, by decide, by decide⟩
    · exact ⟨by decide, fun c hc => by cases hc; decide, by decide, by decide⟩
  obtain ⟨hne, hhead, hcolon, hend⟩ := hkeys decided.key hkey
  exact ⟨hne, hhead, ⟨hcolon, hend⟩, by simpa [entryOf] using hvalue, by simp [entryOf],
    by simp [entryOf]⟩

lemma said_idem (lines : List Line) : said (said lines) = said lines := by
  unfold said
  rw [List.filter_filter]
  simp

lemma tidy_idem (entry : Entry) : entry.tidy.tidy = entry.tidy := by
  unfold Entry.tidy
  rw [said_idem]

lemma tidy_wellFormed {entry : Entry} (h : entry.WellFormed) : entry.tidy.WellFormed where
  key_ne := h.key_ne
  key_head := h.key_head
  key_chars := h.key_chars
  value_chars := h.value_chars
  nested_chars line hline := h.nested_chars line (List.mem_filter.1 hline).1
  nested line hline := h.nested line (List.mem_filter.1 hline).1

lemma mapping_entries {file : File} (h : file.Styled) :
    ∀ entry ∈ file.mapping, entry.WellFormed ∧ entry.tidy = entry := by
  unfold File.mapping
  cases hadvanced : file.advanced with
  | none => simp
  | some block =>
    intro entry hentry
    obtain ⟨entry, hmem, rfl⟩ := List.mem_map.1 hentry
    exact ⟨tidy_wellFormed (h.entries block hadvanced entry hmem), tidy_idem entry⟩

def replaced (decided : List Decided) (entries : List Entry) : List Entry :=
  decided.map entryOf ++ undecided (decided.map Decided.key) entries

lemma fileOf_styled {settings : Settings} {decided : List Decided} {file : File}
    (hdecided : decidedBy settings = .ok decided) (hport : '\n' ∉ settings.serialPort)
    (h : file.Styled) :
    let written := fileOf settings decided (undecided (decided.map Decided.key) file.mapping)
    written.Styled ∧ written.Unmistaken ∧ written.mapping = replaced decided file.mapping := by
  intro written
  obtain ⟨hkeys, hvalues⟩ := decidedBy_ok hdecided
  have hentries : ∀ entry ∈ replaced decided file.mapping,
      entry.WellFormed ∧ entry.tidy = entry := by
    intro entry hentry
    rcases List.mem_append.1 hentry with hentry | hentry
    · obtain ⟨d, hd, rfl⟩ := List.mem_map.1 hentry
      exact ⟨entryOf_wellFormed (hkeys.subset (List.mem_map_of_mem hd)) (hvalues d hd), rfl⟩
    · exact mapping_entries h entry (List.mem_filter.1 hentry).1
  have hadvanced : written.advanced = if replaced decided file.mapping = [] then none
      else some ⟨[], replaced decided file.mapping⟩ := rfl
  have hmapping : written.mapping = replaced decided file.mapping := by
    unfold File.mapping
    rw [hadvanced]
    split_ifs with hnil
    · exact hnil.symm
    · exact List.map_congr_left (fun entry hentry => (hentries entry hentry).2) |>.trans
        (List.map_id' _)
  have hopening := opening_lines hport
  have hsome (block : Block) (hblock : written.advanced = some block) :
      block = ⟨[], replaced decided file.mapping⟩ := by
    rw [hadvanced] at hblock
    split_ifs at hblock
    exact (Option.some.inj hblock).symm
  refine ⟨⟨fun line hline => (hopening line hline).1, fun line hline => ?_, ⟨fun hmem => ?_, ?_⟩,
    fun block hblock => ?_, fun block hblock => ?_, ?_, fun line hline => ?_⟩, ?_, hmapping⟩
  · cases hline
  · exact (hopening header hmem).2 (List.suffix_refl _)
  · exact List.not_mem_nil
  · rw [hsome block hblock]
    simp
  · rw [hsome block hblock]
    exact fun entry hentry => (hentries entry hentry).1
  · have hnodup : (decided.map Decided.key).Nodup := hkeys.nodup (by decide)
    have hentryKeys : (decided.map entryOf).map Entry.key = decided.map Decided.key := by
      rw [List.map_map]
      rfl
    have hold : ((undecided (decided.map Decided.key) file.mapping).map Entry.key).Nodup :=
      h.keys.sublist (List.filter_sublist.map _)
    rw [hmapping, replaced, List.map_append, hentryKeys]
    refine hnodup.append hold fun key hkey hmem => ?_
    obtain ⟨entry, hentry, rfl⟩ := List.mem_map.1 hmem
    have hout := (List.mem_filter.1 hentry).2
    rw [List.contains_iff_mem.2 hkey] at hout
    cases hout
  · cases hline
  · unfold File.Unmistaken
    have hbefore : ∀ line ∈ written.before, ¬header <:+ line := fun line hline =>
      (hopening line hline).2
    split
    · intro line hline
      exact hbefore line (by simpa [written, fileOf] using hline)
    · exact hbefore

/-! ### Starts, settings and Zigbee2MQTT -/

inductive FileEvent
  | start (settings : Settings) (readable : Bool) (ending : Ending)
  /-- Zigbee2MQTT wrote it. -/
  | wrote (file : File)

def fileStep (folder : Folder) : FileEvent → Folder
  | .start settings readable ending => start settings readable ending folder
  | .wrote file => { folder with config := some file.render }

def fileRun (events : List FileEvent) : Folder := events.foldl fileStep ⟨none, none⟩

/-- A file that is there can be read, the serial port is on one line, and no line before the block
Zigbee2MQTT writes ends like its header. -/
def Meets (folder : Folder) : FileEvent → Prop
  | .start settings readable _ =>
    (folder.config.isSome → readable = true) ∧ '\n' ∉ settings.serialPort
  | .wrote file => file.Unmistaken

def changed (entries : List Entry) : FileEvent → List Entry
  | .start settings _ ending =>
    match decidedBy settings, ending with
    | .ok decided, .done => replaced decided entries
    | _, _ => entries
  | .wrote file => file.mapping

/-- What a file says in its `advanced` block, each key once. -/
def Says (config : Option (List Char)) (entries : List Entry) : Prop :=
  match config with
  | none => entries = []
  | some text => ∃ file : File,
    file.Styled ∧ file.Unmistaken ∧ text = file.render ∧ file.mapping = entries

lemma generate_error {settings : Settings} {e : String} (h : decidedBy settings = .error e)
    (existing : Option (List Char)) : generate settings baseTopic existing = .error e := by
  unfold generate
  rw [h]
  rfl

lemma start_kept {settings : Settings} {ending : Ending}
    (h : ending ≠ .done ∨ ∃ e, decidedBy settings = .error e) (readable : Bool)
    (folder : Folder) : (start settings readable ending folder).config = folder.config := by
  unfold start
  dsimp only
  rcases h with h | ⟨e, he⟩
  · cases generate settings baseTopic
        ((if readable then folder.config else none).bind existingAdvancedBlock) with
    | error e => rfl
    | ok yaml =>
      cases ending with
      | notCreated => rfl
      | notWritten left => rfl
      | notRenamed => rfl
      | done => exact absurd rfl h
  · rw [generate_error he]

def File.nothing : File := ⟨[], none, []⟩

lemma nothing_styled : File.nothing.Styled where
  before line hline := by cases hline
  after line hline := by cases hline
  once := ⟨List.not_mem_nil, List.not_mem_nil⟩
  leading block hblock := by cases hblock
  entries block hblock := by cases hblock
  keys := List.nodup_nil
  margin line hline := by cases hline

lemma start_says {folder : Folder} {entries : List Entry} {settings : Settings} {readable : Bool}
    {decided : List Decided} (h : Says folder.config entries)
    (hmeets : Meets folder (.start settings readable .done))
    (hdecided : decidedBy settings = .ok decided) :
    Says (start settings readable .done folder).config (replaced decided entries) := by
  obtain ⟨hreadable, hport⟩ := hmeets
  have hwrites (file : File) (hstyled : file.Styled) (hentries : file.mapping = entries)
      (hcarried : carriedForward
        ((if readable then folder.config else none).bind existingAdvancedBlock)
        (decided.map Decided.key) =
          unlines (linesOf (undecided (decided.map Decided.key) file.mapping))) :
      Says (start settings readable .done folder).config (replaced decided entries) := by
    obtain ⟨hwritten, hunmistaken, hmapping⟩ := fileOf_styled hdecided hport hstyled
    unfold start
    dsimp only
    rw [generate_eq hdecided hcarried]
    exact ⟨_, hwritten, hunmistaken, rfl, hentries ▸ hmapping⟩
  unfold Says at h
  cases hconfig : folder.config with
  | none =>
    rw [hconfig] at h
    refine hwrites .nothing nothing_styled h.symm ?_
    rw [hconfig, ite_self]
    rfl
  | some text =>
    rw [hconfig] at h
    obtain ⟨file, hstyled, hunmistaken, rfl, hentries⟩ := h
    refine hwrites file hstyled hentries ?_
    rw [hconfig, hreadable (by rw [hconfig]; rfl)]
    exact carriedForward_render hstyled hunmistaken _

lemma fileStep_says {folder : Folder} {entries : List Entry} (h : Says folder.config entries)
    {event : FileEvent} (hstyled : ∀ file, event = .wrote file → file.Styled)
    (hmeets : Meets folder event) :
    Says (fileStep folder event).config (changed entries event) := by
  cases event with
  | wrote file => exact ⟨file, hstyled file rfl, hmeets, rfl, rfl⟩
  | start settings readable ending =>
    have hstays (hkept : ending ≠ .done ∨ ∃ e, decidedBy settings = .error e)
        (hsame : changed entries (.start settings readable ending) = entries) :
        Says (fileStep folder (.start settings readable ending)).config
          (changed entries (.start settings readable ending)) := by
      have hconfig : (fileStep folder (.start settings readable ending)).config = folder.config :=
        start_kept hkept readable folder
      rw [hconfig, hsame]
      exact h
    cases hdecided : decidedBy settings with
    | error e => exact hstays (.inr ⟨e, hdecided⟩) (by simp only [changed, hdecided])
    | ok decided =>
      cases ending with
      | notCreated => exact hstays (.inl nofun) (by simp only [changed, hdecided])
      | notWritten left => exact hstays (.inl nofun) (by simp only [changed, hdecided])
      | notRenamed => exact hstays (.inl nofun) (by simp only [changed, hdecided])
      | done =>
        have hchanged : changed entries (.start settings readable .done) =
            replaced decided entries := by
          simp only [changed, hdecided]
        rw [hchanged]
        exact start_says h hmeets hdecided

/-- Over any starts, changes of settings, and blocks Zigbee2MQTT wrote, the block changes only as
the settings or Zigbee2MQTT change it, while the file can be read at every start and no line before
the block ends like its header. A start that fails leaves the file as it was. -/
theorem fileRun_keeps (events : List FileEvent)
    (hstyled : ∀ file, FileEvent.wrote file ∈ events → file.Styled)
    (hmeets : ∀ before event after, events = before ++ event :: after →
      Meets (fileRun before) event) :
    Says (fileRun events).config (events.foldl changed []) ∧
      ∀ folder settings readable ending,
        (ending ≠ .done ∨ ∃ e, decidedBy settings = .error e) →
        (start settings readable ending folder).config = folder.config := by
  refine ⟨?_, fun folder settings readable ending hkept => start_kept hkept readable folder⟩
  induction events using List.reverseRecOn with
  | nil => rfl
  | append_singleton events event ih =>
    have hbefore := ih (fun file hfile => hstyled file (List.mem_append_left _ hfile))
      fun before event' after heq => hmeets before event' (after ++ [event]) (by simp [heq])
    have hlast := fileStep_says hbefore
      (fun file hfile => hstyled file (by simp [hfile])) (hmeets events event [] rfl)
    have hrun : fileRun (events ++ [event]) = fileStep (fileRun events) event := by
      simp [fileRun]
    rw [hrun, List.foldl_append]
    exact hlast

def plain : Settings := ⟨"/dev/ttyUSB0".toList, .ember, none, none, none, 17883⟩

def identity : Block := ⟨[], [⟨"network_key".toList, [], ["    - 1".toList, "    - 2".toList]⟩]⟩

def written : File := ⟨["version: 4".toList], some identity, ["frontend:".toList]⟩

lemma identity_wellFormed : ∀ entry ∈ identity.entries, entry.WellFormed := by
  intro entry hentry
  rw [List.mem_singleton.1 hentry]
  have hnested : ∀ line ∈ ["    - 1".toList, "    - 2".toList], '\n' ∉ line ∧ Nested line := by
    intro line hline
    simp only [List.mem_cons, List.not_mem_nil, or_false] at hline
    rcases hline with rfl | rfl
    · exact ⟨by decide, .inr (.inr (by decide))⟩
    · exact ⟨by decide, .inr (.inr (by decide))⟩
  exact ⟨by decide, fun c hc => by cases hc; decide, by decide, by decide,
    fun line hline => (hnested line hline).1, fun line hline => (hnested line hline).2⟩

lemma written_styled : written.Styled where
  before := by decide
  after := by decide
  once := by decide
  leading block hblock := by
    cases hblock
    exact fun line hline => by cases hline
  entries block hblock := by
    cases hblock
    exact identity_wellFormed
  keys := List.nodup_singleton _
  margin line hline := by
    cases hline
    unfold Indented
    decide

theorem fileRun_key_kept :
    Says (fileRun [.wrote written, .start plain true .done]).config written.mapping := by
  refine (fileRun_keeps [.wrote written, .start plain true .done] (fun file hfile => ?_)
    fun before event after heq => ?_).1
  · simp only [List.mem_cons, FileEvent.wrote.injEq, List.not_mem_nil, or_false, reduceCtorEq]
      at hfile
    rw [hfile]
    exact written_styled
  · cases before with
    | nil =>
      cases heq
      have hunmistaken : ∀ line ∈ written.before, ¬header <:+ line := by decide
      exact hunmistaken
    | cons first before =>
      cases before with
      | nil =>
        cases heq
        exact ⟨fun _ => rfl, by decide⟩
      | cons second before => simp at heq

def mistaken : File :=
  ⟨["my_advanced:".toList, "  x: 1".toList], some identity, ["frontend:".toList]⟩

/-- A section whose key only ends in `advanced:` is carried forward in place of the block, and from
a file that can't be read nothing is: the network's key is gone. -/
theorem key_lost :
    (start plain true .done ⟨some mistaken.render, none⟩).config =
        some (fileOf plain [] [⟨"x".toList, " 1".toList, []⟩]).render ∧
      (start plain false .done ⟨some written.render, none⟩).config =
        some (fileOf plain [] []).render := by
  decide +kernel

end Irori.Zigbee.Proofs
