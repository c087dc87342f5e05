import Irori.Automations.Runs
import Mathlib.Tactic

/-!
# Run logs that last

A log is whole lines, one a record, and at most something begun after them. As long as each append
starts on a line of its own and isn't cut inside a character, what is read is what was written, from
the oldest kept on.
-/

namespace Irori.Automations.Proofs

variable {ρ : Type} {format : RecordFormat ρ} {kept : ℕ}

/-- What a record's line is: the record, on one line, and not the start of a longer one. -/
structure Documented (format : RecordFormat ρ) : Prop where
  readsBack : ∀ r, format.read (format.write r) = some r
  oneLine : ∀ r, '\n' ∉ (format.write r).toList ∧ '\r' ∉ (format.write r).toList
  nonempty : ∀ r, format.write r ≠ ""
  noStart : ∀ r k, k < (format.write r).toList.length →
    format.read (String.ofList ((format.write r).toList.take k)) = none

def chars (format : RecordFormat ρ) (recs : List ρ) : List Char :=
  recs.flatMap fun r => (format.write r).toList ++ ['\n']

lemma chars_append (a b : List ρ) : chars format (a ++ b) = chars format a ++ chars format b :=
  List.flatMap_append

lemma splitOn_chars (hformat : Documented format) (recs : List ρ) {tail : List Char}
    (htail : '\n' ∉ tail) : (chars format recs ++ tail).splitOn '\n' =
      recs.map (fun r => (format.write r).toList) ++ [tail] := by
  induction recs with
  | nil => exact List.splitOn_eq_singleton htail
  | cons r recs ih =>
    have hcons : chars format (r :: recs) ++ tail =
        (format.write r).toList ++ '\n' :: (chars format recs ++ tail) := by
      simp [chars]
    rw [hcons, List.splitOn_append_cons_self_of_not_mem (hformat.oneLine r).1, ih]
    rfl

lemma stripCr_write (hformat : Documented format) (r : ρ) :
    stripCr (format.write r).toList = (format.write r).toList := by
  rw [stripCr, if_neg]
  intro hlast
  exact (hformat.oneLine r).2 (List.mem_of_getLast? hlast)

lemma lines_chars (hformat : Documented format) (recs : List ρ) {tail : List Char}
    (htail : '\n' ∉ tail) : lines (String.ofList (chars format recs ++ tail)) =
      recs.map format.write ++ if tail = [] then [] else [String.ofList tail] := by
  have hstrip : (recs.map fun r => (format.write r).toList).map
      (fun line => String.ofList (stripCr line)) = recs.map format.write := by
    rw [List.map_map]
    refine List.map_congr_left fun r _ => ?_
    simp [stripCr_write hformat]
  rw [lines, String.toList_ofList, splitOn_chars hformat recs htail]
  simp only [List.dropLast_concat, hstrip]
  simp

def heard (format : RecordFormat ρ) (tail : List Char) : List ρ :=
  if tail = [] then [] else (format.read (String.ofList tail)).toList

def logOf (format : RecordFormat ρ) (recs : List ρ) (tail : List Char) : List UInt8 :=
  Utf8.encode (String.ofList (chars format recs ++ tail))

lemma readLines_logOf (hformat : Documented format) (recs : List ρ) {tail : List Char}
    (htail : '\n' ∉ tail) :
    readLines format (logOf format recs tail) = recs ++ heard format tail := by
  have hrecs : (recs.map format.write).filterMap format.read = recs := by
    rw [List.filterMap_map]
    refine (List.filterMap_congr fun r _ => ?_).trans List.filterMap_some
    exact hformat.readsBack r
  rw [readLines, readToString, logOf, Utf8.decode_of_encode, Option.getD_some,
    lines_chars hformat recs htail, List.filterMap_append, hrecs, heard]
  split_ifs
  · rfl
  · cases hread : format.read (String.ofList tail) <;> simp [hread]

lemma intercalate_write {recs : List ρ} (h : recs ≠ []) :
    "\n".intercalate (recs.map format.write) ++ "\n" = String.ofList (chars format recs) := by
  rw [← String.toList_inj, String.toList_append, String.toList_intercalate, String.toList_ofList]
  induction recs with
  | nil => exact absurd rfl h
  | cons r recs ih =>
    cases recs with
    | nil => simp [chars]
    | cons r' recs =>
      have hrest := ih (by simp)
      simp only [List.map_cons, List.intercalate_cons_cons] at hrest ⊢
      rw [List.append_assoc, List.append_assoc, hrest]
      simp [chars]

/-- An append starts on a line of its own, and is not cut inside a character. -/
def Steady (format : RecordFormat ρ) (file : List UInt8) (a : Append ρ) : Prop :=
  (readToString file = "" ∨ (readToString file).toList.getLast? = some '\n') ∧
  ∀ n, a.cut = some n → ∃ k, (Utf8.encode (lineOf format a.value)).take n =
    Utf8.encode (String.ofList ((lineOf format a.value).toList.take k))

/-- What a log keeps: the newest of what was written, at least those to be kept. -/
def Kept (format : RecordFormat ρ) (kept : ℕ) (file : List UInt8) (records : List ρ) : Prop :=
  ∃ dropped recs tail, records = dropped ++ recs ++ heard format tail ∧
    (dropped = [] ∨ kept ≤ recs.length) ∧ '\n' ∉ tail ∧ file = logOf format recs tail

lemma tail_eq_nil {recs : List ρ} {tail : List Char} (htail : '\n' ∉ tail)
    (h : readToString (logOf format recs tail) = "" ∨
      (readToString (logOf format recs tail)).toList.getLast? = some '\n') : tail = [] := by
  rw [readToString, logOf, Utf8.decode_of_encode, Option.getD_some, String.toList_ofList] at h
  rcases h with h | h
  · have hnil : chars format recs ++ tail = [] := by
      simpa using congrArg String.toList h
    exact (List.append_eq_nil_iff.1 hnil).2
  · by_contra hne
    rw [List.getLast?_append_of_ne_nil _ hne] at h
    exact htail (List.mem_of_getLast? h)

lemma logOf_append (recs : List ρ) (more : List Char) :
    logOf format recs [] ++ Utf8.encode (String.ofList more) = logOf format recs more := by
  rw [logOf, logOf, ← Utf8.encode_append, List.append_nil, ← String.ofList_append]

lemma lineOf_toList (r : ρ) : (lineOf format r).toList = (format.write r).toList ++ ['\n'] := by
  simp [lineOf]

lemma logOf_line (recs : List ρ) (r : ρ) :
    logOf format recs [] ++ Utf8.encode (lineOf format r) = logOf format (recs ++ [r]) [] := by
  have hline : lineOf format r = String.ofList ((format.write r).toList ++ ['\n']) := by
    rw [← lineOf_toList, String.ofList_toList]
  rw [hline, logOf_append, logOf, logOf, chars_append]
  simp [chars]

lemma heard_write (hformat : Documented format) (r : ρ) :
    heard format (format.write r).toList = [r] := by
  have hne : (format.write r).toList ≠ [] := fun hnil =>
    hformat.nonempty r (String.toList_inj.1 hnil)
  rw [heard, if_neg hne, String.ofList_toList, hformat.readsBack]
  rfl

lemma heard_start (hformat : Documented format) (r : ρ) {k : ℕ}
    (hk : k < (format.write r).toList.length) :
    heard format ((format.write r).toList.take k) = [] := by
  rw [heard, hformat.noStart r k hk]
  split_ifs <;> rfl

lemma encode_start_lt (r : ρ) {k : ℕ} (hk : k < (format.write r).toList.length) :
    (Utf8.encode (String.ofList ((format.write r).toList.take k))).length <
      (Utf8.encode (format.write r)).length := by
  have hsplit : format.write r = String.ofList ((format.write r).toList.take k) ++
      String.ofList ((format.write r).toList.drop k) := by
    rw [← String.ofList_append, List.take_append_drop, String.ofList_toList]
  have hrest : Utf8.encode (String.ofList ((format.write r).toList.drop k)) ≠ [] := by
    intro hnil
    have hempty := congrArg String.toList
      (Utf8.encode_injective (hnil.trans Utf8.encode_empty.symm))
    rw [String.toList_ofList] at hempty
    exact absurd (List.drop_eq_nil_iff.1 hempty) (not_le.2 hk)
  have hlen := congrArg (fun text => (Utf8.encode text).length) hsplit
  rw [Utf8.encode_append, List.length_append] at hlen
  have hpos := List.length_pos_of_ne_nil hrest
  omega

lemma cut_kept (hformat : Documented format) {dropped recs : List ρ}
    (hold : dropped = [] ∨ kept ≤ recs.length) (r : ρ) {n k : ℕ} (hn :
      (Utf8.encode (lineOf format r)).take n =
        Utf8.encode (String.ofList ((lineOf format r).toList.take k))) :
    Kept format kept (logOf format recs [] ++ (Utf8.encode (lineOf format r)).take n)
      (dropped ++ recs ++
        if (Utf8.encode (format.write r)).length ≤ n then [r] else []) := by
  have hwrite : (Utf8.encode (format.write r)).length ≤ (Utf8.encode (lineOf format r)).length := by
    rw [lineOf, Utf8.encode_append, List.length_append]
    exact Nat.le_add_right _ _
  have hlen := congrArg List.length hn
  rw [List.length_take] at hlen
  rcases lt_trichotomy k (format.write r).toList.length with hk | hk | hk
  · -- Not all of the record.
    have htake : (lineOf format r).toList.take k = (format.write r).toList.take k := by
      rw [lineOf_toList, List.take_append_of_le_length hk.le]
    rw [htake] at hlen hn
    have hshort := encode_start_lt r hk
    rw [hn, logOf_append, if_neg (by omega)]
    refine ⟨dropped, recs, _, ?_, hold, fun hmem => ?_, rfl⟩
    · rw [heard_start hformat r hk]
    · exact (hformat.oneLine r).1 (List.mem_of_mem_take hmem)
  · -- All of it but the end of the line.
    have htake : (lineOf format r).toList.take k = (format.write r).toList := by
      rw [lineOf_toList, hk, List.take_left]
    rw [htake, String.ofList_toList] at hlen
    rw [htake] at hn
    rw [hn, logOf_append, if_pos (by omega)]
    refine ⟨dropped, recs, _, ?_, hold, (hformat.oneLine r).1, rfl⟩
    rw [heard_write hformat]
  · -- The whole line.
    have htake : (lineOf format r).toList.take k = (lineOf format r).toList := by
      refine List.take_of_length_le ?_
      rw [lineOf_toList, List.length_append]
      exact hk
    rw [htake, String.ofList_toList] at hlen hn
    rw [hn, logOf_line, if_pos (by omega)]
    refine ⟨dropped, recs ++ [r], [], ?_, ?_, by simp, rfl⟩
    · simp [heard]
    · exact hold.imp_right fun hle => by
        rw [List.length_append]
        omega

lemma whole_kept (hformat : Documented format) (hkept : 0 < kept) {dropped recs : List ρ}
    (hold : dropped = [] ∨ kept ≤ recs.length) (r : ρ) (rewrites : Bool) :
    Kept format kept (append format kept (logOf format recs []) ⟨r, none, rewrites⟩)
      (dropped ++ recs ++ [r]) := by
  have hlines : lines (readToString (logOf format (recs ++ [r]) [])) =
      (recs ++ [r]).map format.write := by
    rw [readToString, logOf, Utf8.decode_of_encode, Option.getD_some, lines_chars hformat _ (by simp)]
    simp
  have hplain : Kept format kept (logOf format (recs ++ [r]) []) (dropped ++ recs ++ [r]) := by
    refine ⟨dropped, recs ++ [r], [], by simp [heard], ?_, by simp, rfl⟩
    exact hold.imp_right fun hle => by
      rw [List.length_append]
      omega
  rw [append]
  dsimp only
  rw [logOf_line, hlines]
  split_ifs with hlong
  · rw [List.length_map] at hlong
    have hdrop : ((recs ++ [r]).drop ((recs ++ [r]).length - kept)).length = kept := by
      rw [List.length_drop]
      omega
    have hne : (recs ++ [r]).drop ((recs ++ [r]).length - kept) ≠ [] := fun hnil => by
      rw [hnil] at hdrop
      exact hkept.ne hdrop
    rw [List.length_map, ← List.map_drop, intercalate_write hne]
    refine ⟨dropped ++ (recs ++ [r]).take ((recs ++ [r]).length - kept), _, [], ?_,
      .inr hdrop.ge, by simp, by rw [logOf, List.append_nil]⟩
    have hsplit := List.take_append_drop ((recs ++ [r]).length - kept) (recs ++ [r])
    rw [List.append_assoc dropped, List.append_assoc dropped, List.append_assoc dropped, hsplit]
    simp [heard]
  · exact hplain
  · exact hplain

lemma append_kept (hformat : Documented format) (hkept : 0 < kept) {file : List UInt8}
    {records : List ρ} {a : Append ρ} (h : Kept format kept file records)
    (hsteady : Steady format file a) : Kept format kept (append format kept file a)
      (records ++ if a.whole format then [a.value] else []) := by
  obtain ⟨dropped, recs, tail, rfl, hold, htail, rfl⟩ := h
  obtain ⟨hstart, hcut⟩ := hsteady
  obtain rfl := tail_eq_nil htail hstart
  have hheard : dropped ++ recs ++ heard format [] = dropped ++ recs := by simp [heard]
  rw [hheard]
  obtain ⟨r, cut, rewrites⟩ := a
  cases cut with
  | none => exact whole_kept hformat hkept hold r rewrites
  | some n =>
    obtain ⟨k, hk⟩ := hcut n rfl
    have hkeeps := cut_kept hformat hold r hk
    simpa [append, Append.whole] using hkeeps

def SteadyRun (format : RecordFormat ρ) (kept : ℕ) : List UInt8 → List (Append ρ) → Prop
  | _, [] => True
  | file, a :: as => Steady format file a ∧ SteadyRun format kept (append format kept file a) as

lemma appends_kept (hformat : Documented format) (hkept : 0 < kept) (as : List (Append ρ)) :
    ∀ {file : List UInt8} {records : List ρ}, Kept format kept file records →
      SteadyRun format kept file as →
      Kept format kept (appends format kept file as) (records ++ written format as) := by
  induction as with
  | nil =>
    intro file records h _
    rw [written, List.filter_nil, List.map_nil, List.append_nil]
    exact h
  | cons a as ih =>
    intro file records h hsteady
    have hall := ih (append_kept hformat hkept h hsteady.1) hsteady.2
    have hwritten : records ++ written format (a :: as) =
        (records ++ if a.whole format then [a.value] else []) ++ written format as := by
      unfold written
      by_cases hwhole : a.whole format = true <;> simp [hwhole]
    rw [hwritten]
    exact hall

/-- What is read of a log is what was written in full, from the oldest kept on, as long as each
append starts on a line of its own and none is cut inside a character. -/
theorem readLines_appends (hformat : Documented format) (hkept : 0 < kept) (as : List (Append ρ))
    (hsteady : SteadyRun format kept [] as) :
    ∃ dropped, written format as = dropped ++ readLines format (appends format kept [] as) ∧
      (dropped = [] ∨ kept ≤ (readLines format (appends format kept [] as)).length) := by
  have hempty : Kept format kept [] ([] : List ρ) :=
    ⟨[], [], [], by simp [heard], .inl rfl, by simp, by rw [logOf]; rfl⟩
  obtain ⟨dropped, recs, tail, hrecords, hold, htail, hfile⟩ :=
    appends_kept hformat hkept as hempty hsteady
  rw [List.nil_append] at hrecords
  rw [hfile, readLines_logOf hformat recs htail]
  refine ⟨dropped, by rw [hrecords, List.append_assoc], hold.imp_right fun hle => ?_⟩
  rw [List.length_append]
  omega

def braces : RecordFormat Unit where
  write _ := "{}"
  read text := if text = "{}" then some () else none

lemma braces_documented : Documented braces where
  readsBack _ := rfl
  oneLine := by decide
  nonempty := by decide
  noStart r k hk := by
    have htwo : (braces.write r).toList = ['{', '}'] := by decide +revert
    rw [htwo] at hk ⊢
    have hk' : k < 2 := hk
    interval_cases k <;> rfl

theorem readLines_appends_cut :
    ∃ dropped, written braces [⟨(), none, true⟩, ⟨(), some 1, true⟩] =
        dropped ++ readLines braces
          (appends braces runsKept [] [⟨(), none, true⟩, ⟨(), some 1, true⟩]) ∧
      (dropped = [] ∨ runsKept ≤ (readLines braces
        (appends braces runsKept [] [⟨(), none, true⟩, ⟨(), some 1, true⟩])).length) := by
  refine readLines_appends braces_documented (by decide) _
    ⟨⟨.inl rfl, nofun⟩, ⟨.inr ?_, ?_⟩, trivial⟩
  · decide
  · intro n hn
    cases hn
    exact ⟨1, by decide⟩

/-- A record cut after its first half takes the next one with it. -/
theorem readLines_torn :
    ¬ ∀ (format : RecordFormat Unit) (kept : ℕ) (as : List (Append Unit)), Documented format →
      0 < kept → ∃ dropped, written format as =
          dropped ++ readLines format (appends format kept [] as) ∧
        (dropped = [] ∨ kept ≤ (readLines format (appends format kept [] as)).length) := by
  intro h
  obtain ⟨dropped, hwritten, hold⟩ := h braces runsKept [⟨(), some 1, true⟩, ⟨(), none, true⟩]
    braces_documented (by decide)
  have hread : readLines braces
      (appends braces runsKept [] [⟨(), some 1, true⟩, ⟨(), none, true⟩]) = [] := by
    decide
  rw [hread] at hwritten hold
  rcases hold with rfl | hold
  · cases hwritten
  · exact absurd hold (by decide)

end Irori.Automations.Proofs
