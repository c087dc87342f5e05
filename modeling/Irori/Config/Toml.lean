import Irori.Config.Operations

/-!
# Reading `irori.toml`

The parser of TOML is another's. A text is a list of headers and pairs to it, and Irori's settings
are read from what these say: the recorder's from what is about it, the others from the rest.
-/

namespace Irori.Config

abbrev Line := List Char

inductive Entry (ν : Type)
  | header (path : List String)
  | pair (key : List String) (value : ν)
  deriving DecidableEq

def Entry.isHeader {ν : Type} : Entry ν → Bool
  | .header _ => true
  | .pair .. => false

abbrev Statement (ν : Type) := List String × Option ν

/-- The table a pair is in that stands after these entries. -/
def context {ν : Type} : List String → List (Entry ν) → List String
  | table, [] => table
  | _, .header path :: rest => context path rest
  | table, .pair .. :: rest => context table rest

def statements {ν : Type} : List String → List (Entry ν) → List (Statement ν)
  | _, [] => []
  | _, .header path :: rest => (path, none) :: statements path rest
  | table, .pair key value :: rest => (table ++ key, some value) :: statements table rest

def aboutRecorder {ν : Type} (statement : Statement ν) : Bool :=
  statement.1.head? == some "recorder"

def RecorderSection.InRange (part : RecorderSection) : Prop :=
  part.retainDays < 2 ^ 32 ∧ ∀ days, part.summaryDays = some days → days < 2 ^ 32

def RecorderSection.statements {ν : Type} (number : Nat → ν) (part : RecorderSection) :
    List (Statement ν) :=
  (["recorder"], none) :: (["recorder", "retain_days"], some (number part.retainDays)) ::
    match part.summaryDays with
    | some days => [(["recorder", "summary_days"], some (number days))]
    | none => []

def pairLine (key : String) (n : Nat) : Line := (key ++ " = " ++ toString n ++ "\n").toList

def unmarked : List Char → List Char
  | [] => []
  | c :: rest => if c.toNat = 65279 then rest else c :: rest

/-- TOML and serde. A text after whole lines goes on as if it stood alone, and a line break at the
end says nothing. -/
structure Reader (ν ι : Type) where
  /-- The text is past its byte order mark. -/
  parse : List Char → Option (List (Entry ν))
  number : Nat → ν
  others : List (Statement ν) → Option (List ExtensionId × ι)
  recorder : List (Statement ν) → Option RecorderSection
  parse_nil : parse [] = some []
  parse_append : ∀ {first second : List Char} {entries later : List (Entry ν)},
    parse (first ++ ['\n']) = some entries → parse second = some later →
      parse (first ++ ['\n'] ++ second) = some (entries ++ later)
  parse_newline : ∀ {text : List Char} {entries : List (Entry ν)}, parse text = some entries →
    parse (text ++ ['\n']) = some entries
  parse_header : parse "[recorder]\n".toList = some [.header ["recorder"]]
  parse_pair : ∀ (key : String) (n : Nat), key ≠ "" → (∀ c ∈ key.toList, isSlugChar c = true) →
    n < 2 ^ 32 → parse (pairLine key n) = some [.pair [key] (number n)]
  recorder_statements : ∀ part : RecorderSection, part.InRange →
    recorder (part.statements number) = some part

namespace Reader

variable {ν ι : Type} (reader : Reader ν ι)

def settingsOf (all : List (Statement ν)) : Option (IroriSettings ι) := do
  let (disabled, rest) ← reader.others (all.filter fun statement => !aboutRecorder statement)
  let recorder ← reader.recorder (all.filter aboutRecorder)
  if recorder.check.isOk then some ⟨recorder, disabled, rest⟩ else none

def read (text : String) : Option (IroriSettings ι) := do
  reader.settingsOf (statements [] (← reader.parse (unmarked text.toList)))

/-- Whether a line, after these, is a pair of the recorder's table. -/
def isOwn (before : List Line) (line : Line) : Bool :=
  match reader.parse (unmarked before.flatten), reader.parse line with
  | some entries, some [.pair key value] =>
    aboutRecorder (context [] entries ++ key, some value)
  | _, _ => false

/-- The lines that aren't pairs of the recorder's table, after these. -/
def otherLines (before : List Line) : List Line → List Line
  | [] => []
  | line :: rest =>
    if reader.isOwn before line then otherLines (before ++ [line]) rest
    else line :: otherLines (before ++ [line]) rest

end Reader

def bare (line : Line) : Line := line.filter fun c => c ≠ '\n' && c ≠ '\r'

end Irori.Config
