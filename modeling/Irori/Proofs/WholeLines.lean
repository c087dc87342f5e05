import Irori.Process.Drive

/-!
# What a process writes is read whole

The lines handed on are those the process wrote, each once and in order, as long as no turn of the
loop ends otherwise while a part of a line has been read; and only then.
-/

namespace Irori.Process

abbrev Line := { line : List UInt8 // Lines.IsLine newline line }

variable {μ : Type} (parse : List UInt8 → Except String μ)

/-- The lines that were read are the first that were written, each read as its message is handed on,
and while the process is fed all that was written of the others is still there to be read. -/
structure ReadWhole (script : List Line) (d : Drive μ) : Prop where
  taken : d.taken <+: script.map Subtype.val
  handed : d.handed = d.taken.filterMap fun line => (parse line).toOption
  rest : d.phase.goesOn = true → ∃ later : List Line,
    script.map Subtype.val = d.taken ++ later.map Subtype.val ∧
      (later.map Subtype.val).flatten = d.line ++ d.buffer ++ d.coming

def AllReadWhole (script : List Line) (d : Drive μ) : List Event → Prop
  | [] => ReadWhole parse script d
  | event :: events =>
    ReadWhole parse script d ∧ AllReadWhole script (d.after parse event) events

/-- No turn that goes on ends otherwise while a part of a line has been read. -/
def Unbroken (d : Drive μ) : List Event → Prop
  | [] => True
  | event :: events =>
    (∀ branch : Branch, event = .other branch → d.canLeave branch = true →
      (d.leave branch).phase.goesOn = true → d.line = []) ∧
    Unbroken (d.after parse event) events

variable {parse} {script : List Line} {d : Drive μ}

structure Reading (parse : List UInt8 → Except String μ) (script : List Line) (d : Drive μ) :
    Prop where
  whole : ReadWhole parse script d
  line : newline ∉ d.line

lemma reading_start (parse : List UInt8 → Except String μ) (script : List Line) :
    Reading parse script (.start (script.map Subtype.val)) :=
  ⟨⟨List.nil_prefix, rfl, fun _ => ⟨script, rfl, rfl⟩⟩, List.not_mem_nil⟩

lemma Reading.take (h : Reading parse script d) {line rest : List UInt8}
    (hline : Lines.IsLine newline line) (hgoesOn : d.phase.goesOn = true)
    (hrest : d.line ++ d.buffer = line ++ rest) (handled : Except String Unit) :
    Reading parse script (d.take parse line rest handled) := by
  obtain ⟨later, hscript, hlater⟩ := h.whole.rest hgoesOn
  rw [hrest, List.append_assoc] at hlater
  have hlines : ∀ line ∈ later.map Subtype.val, Lines.IsLine newline line := by
    intro line hmem
    obtain ⟨line, -, rfl⟩ := List.mem_map.mp hmem
    exact line.2
  obtain ⟨others, hothers, hflatten⟩ := Lines.eq_cons_of_flatten hlines hline hlater
  obtain ⟨first, later', rfl, rfl, rfl⟩ := List.map_eq_cons_iff.mp hothers
  have hnow : script.map Subtype.val = (d.taken ++ [first.val]) ++ later'.map Subtype.val := by
    rw [hscript, List.map_cons, List.append_assoc, List.singleton_append]
  have htaken : d.taken ++ [first.val] <+: script.map Subtype.val := ⟨_, hnow.symm⟩
  have hhanded := h.whole.handed
  unfold Drive.take
  dsimp only
  cases hparse : parse first.val with
  | error why =>
    have hsame : d.handed = (d.taken ++ [first.val]).filterMap fun line => (parse line).toOption := by
      rw [List.filterMap_append, ← hhanded]
      simp [hparse, Except.toOption]
    cases hphase : d.phase with
    | running =>
      exact ⟨⟨htaken, hsame, fun hover => nomatch hover⟩, List.not_mem_nil⟩
    | stopping why =>
      exact ⟨⟨htaken, hsame, fun _ => ⟨later', hnow, hflatten⟩⟩, List.not_mem_nil⟩
    | finished why =>
      exact ⟨⟨htaken, hsame, fun _ => ⟨later', hnow, hflatten⟩⟩, List.not_mem_nil⟩
  | ok message =>
    have hmore : d.handed ++ [message] =
        (d.taken ++ [first.val]).filterMap fun line => (parse line).toOption := by
      rw [List.filterMap_append, ← hhanded]
      simp [hparse, Except.toOption]
    cases hphase : d.phase with
    | running =>
      exact ⟨⟨htaken, hmore, fun _ => ⟨later', hnow, hflatten⟩⟩, List.not_mem_nil⟩
    | stopping why =>
      exact ⟨⟨htaken, hmore, fun _ => ⟨later', hnow, hflatten⟩⟩, List.not_mem_nil⟩
    | finished why =>
      exact ⟨⟨htaken, hmore, fun _ => ⟨later', hnow, hflatten⟩⟩, List.not_mem_nil⟩

lemma Reading.read (h : Reading parse script d) (hgoesOn : d.phase.goesOn = true)
    (handled : Except String Unit) : Reading parse script (d.read parse handled) := by
  unfold Drive.read
  cases hfirst : Lines.first newline d.buffer with
  | some found =>
    obtain ⟨text, rest⟩ := found
    obtain ⟨hline, hbuffer⟩ := Lines.first_eq_some hfirst
    exact h.take (hline.prepend h.line) hgoesOn (by rw [hbuffer, List.append_assoc]) handled
  | none =>
    have hbuffer : newline ∉ d.buffer := Lines.first_eq_none.mp hfirst
    obtain ⟨later, hscript, hlater⟩ := h.whole.rest hgoesOn
    dsimp only
    split_ifs with hclosed hnothing
    · cases hphase : d.phase with
      | running => exact ⟨⟨h.whole.taken, h.whole.handed, fun hover => nomatch hover⟩, h.line⟩
      | stopping why => exact h
      | finished why => exact h
    · -- Nothing is left but a part of a line, and what is left is whole lines.
      rw [Bool.and_eq_true, List.isEmpty_iff] at hclosed
      rw [hclosed.2, List.append_nil] at hlater
      cases later with
      | nil => exact absurd hlater.symm hnothing
      | cons line later =>
        obtain ⟨body, -, hbody⟩ := line.2
        have hmem : newline ∈ d.line ++ d.buffer := by
          rw [← hlater, List.map_cons, List.flatten_cons, hbody]
          simp
        rw [List.mem_append] at hmem
        exact absurd hmem (not_or.mpr ⟨h.line, hbuffer⟩)
    · refine ⟨⟨h.whole.taken, h.whole.handed, fun _ => ⟨later, hscript, ?_⟩⟩, ?_⟩
      · rw [hlater, List.append_nil]
      · rw [List.mem_append]
        exact not_or.mpr ⟨h.line, hbuffer⟩

lemma Reading.after (h : Reading parse script d) {event : Event}
    (hheeds : ∀ branch : Branch, event = .other branch → d.canLeave branch = true →
      (d.leave branch).phase.goesOn = true → d.line = []) :
    Reading parse script (d.after parse event) := by
  cases event with
  | arrives count =>
    refine ⟨⟨h.whole.taken, h.whole.handed, fun hgoesOn => ?_⟩, h.line⟩
    obtain ⟨later, hscript, hlater⟩ := h.whole.rest hgoesOn
    refine ⟨later, hscript, ?_⟩
    show _ = d.line ++ (d.buffer ++ d.coming.take count) ++ d.coming.drop count
    rw [hlater, List.append_assoc, List.append_assoc, List.append_assoc, List.take_append_drop]
  | closes => exact ⟨⟨h.whole.taken, h.whole.handed, h.whole.rest⟩, h.line⟩
  | other branch =>
    unfold Drive.after
    dsimp only
    split_ifs with hleaves
    · refine ⟨⟨h.whole.taken, h.whole.handed, fun hgoesOn => ?_⟩, List.not_mem_nil⟩
      have hline := hheeds branch rfl hleaves hgoesOn
      have hbefore : d.phase.goesOn = true := by
        cases hphase : d.phase with
        | running => rfl
        | stopping why => rfl
        | finished why =>
          unfold Drive.leave at hgoesOn
          rw [hphase] at hgoesOn
          cases hgoesOn
      obtain ⟨later, hscript, hlater⟩ := h.whole.rest hbefore
      rw [hline] at hlater
      exact ⟨later, hscript, hlater⟩
    · exact h
  | reads handled =>
    unfold Drive.after
    dsimp only
    split_ifs with hgoesOn
    · exact h.read hgoesOn handled
    · exact h

lemma line_of_readWhole {branch : Branch} (h : ReadWhole parse script d)
    (hafter : ReadWhole parse script (d.after parse (.other branch)))
    (hleaves : d.canLeave branch = true) (hgoesOn : (d.leave branch).phase.goesOn = true) :
    d.line = [] := by
  have hbefore : d.phase.goesOn = true := by
    cases branch with
    | exited reason => exact hleaves
    | grace =>
      cases hphase : d.phase with
      | running => rfl
      | stopping why => rfl
      | finished why =>
        unfold Drive.canLeave at hleaves
        rw [hphase] at hleaves
        cases hleaves
    | stop =>
      rw [of_decide_eq_true hleaves]
      rfl
    | settingsChanged =>
      rw [of_decide_eq_true hleaves]
      rfl
    | disabled =>
      rw [of_decide_eq_true hleaves]
      rfl
    | delivers delivered =>
      rw [of_decide_eq_true hleaves]
      rfl
  have hleft : d.after parse (.other branch) = d.leave branch := if_pos hleaves
  rw [hleft] at hafter
  obtain ⟨later, hscript, hlater⟩ := h.rest hbefore
  obtain ⟨later', hscript', hlater'⟩ := hafter.rest hgoesOn
  have hsame : later.map Subtype.val = later'.map Subtype.val := by
    rw [hscript] at hscript'
    exact List.append_cancel_left hscript'
  rw [hsame, hlater'] at hlater
  have hlengths := congrArg List.length hlater
  simp only [Drive.leave, List.length_append, List.length_nil] at hlengths
  exact List.eq_nil_of_length_eq_zero (by omega)

/-- What a process writes is read whole exactly when no turn that goes on ends otherwise with a part
of a line read. -/
theorem allReadWhole_iff (parse : List UInt8 → Except String μ) (script : List Line)
    (events : List Event) :
    AllReadWhole parse script (.start (script.map Subtype.val)) events ↔
      Unbroken parse (.start (script.map Subtype.val)) events := by
  have hrun : ∀ (events : List Event) (d : Drive μ), Reading parse script d →
      (AllReadWhole parse script d events ↔ Unbroken parse d events) := by
    intro events
    induction events with
    | nil => exact fun d hreading => ⟨fun _ => trivial, fun _ => hreading.whole⟩
    | cons event events ih =>
      intro d hreading
      constructor
      · rintro ⟨hwhole, hrest⟩
        have hheeds : ∀ branch : Branch, event = .other branch → d.canLeave branch = true →
            (d.leave branch).phase.goesOn = true → d.line = [] := by
          rintro branch rfl hleaves hgoesOn
          refine line_of_readWhole hwhole ?_ hleaves hgoesOn
          cases events with
          | nil => exact hrest
          | cons next events => exact hrest.1
        exact ⟨hheeds, (ih _ (hreading.after hheeds)).mp hrest⟩
      · rintro ⟨hheeds, hrest⟩
        exact ⟨hreading.whole, (ih _ (hreading.after hheeds)).mpr hrest⟩
  exact hrun events _ (reading_start parse script)

def emptyObject : Line := ⟨[123, 125, 10], [123, 125], by decide, rfl⟩

def readObject (line : List UInt8) : Except String Unit :=
  if line = emptyObject.val then .ok () else .error "expected value at line 1 column 1"

def callBetween : List Event :=
  [.arrives 2, .reads (.ok ()), .other (.delivers (.ok ())), .arrives 1, .reads (.ok ())]

/-- A line cut in two by a call that goes out is not read whole, and ends the extension. -/
theorem not_allReadWhole_callBetween :
    ¬ AllReadWhole readObject [emptyObject] (.start [emptyObject.val]) callBetween ∧
      (callBetween.foldl (Drive.after readObject) (.start [emptyObject.val])).phase =
        .finished (.ended "invalid message: expected value at line 1 column 1") := by
  refine ⟨fun h => ?_, by decide⟩
  obtain ⟨-, -, -, -, -, hlast⟩ := h
  exact absurd hlast.taken (by decide)

end Irori.Process
