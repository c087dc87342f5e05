import Irori.Lib.Utf8
import Mathlib.Data.List.Basic
import Mathlib.Data.Nat.Notation

/-!
# Run logs

A flow's runs and near-misses, a line each, trimmed to the newest. A file that isn't there is as an
empty one, and an append may be cut short.
-/

namespace Irori.Automations

def runsKept : ℕ := 200

def nearMissesKept : ℕ := 100

structure RecordFormat (ρ : Type) where
  write : ρ → String
  read : String → Option ρ

def stripCr (line : List Char) : List Char :=
  if line.getLast? = some '\r' then line.dropLast else line

/-- The lines of a text, without what ends them. What follows the last end is one too, unless it is
nothing. -/
def lines (text : String) : List String :=
  let parts := text.toList.splitOn '\n'
  let last := parts.getLastD []
  parts.dropLast.map (fun line => String.ofList (stripCr line)) ++
    if last = [] then [] else [String.ofList last]

section Log

variable {ρ : Type} (format : RecordFormat ρ)

def readToString (file : List UInt8) : String := (Utf8.decode file).getD ""

def readLines (file : List UInt8) : List ρ := (lines (readToString file)).filterMap format.read

structure Append (ρ : Type) where
  value : ρ
  /-- After how many bytes a crash or an error comes. -/
  cut : Option ℕ
  rewrites : Bool

def lineOf (value : ρ) : String := format.write value ++ "\n"

/-- Adds one line; when the file holds twice what's kept, rewrites it with the newest `kept`. -/
def append (kept : ℕ) (file : List UInt8) (a : Append ρ) : List UInt8 :=
  let line := Utf8.encode (lineOf format a.value)
  match a.cut with
  | some n => file ++ line.take n
  | none =>
    let file := file ++ line
    let lines := lines (readToString file)
    if lines.length > kept * 2 then
      let newest := "\n".intercalate (lines.drop (lines.length - kept)) ++ "\n"
      -- All or nothing: the new file takes the place of the old one.
      if a.rewrites then Utf8.encode newest else file
    else file

def appends (kept : ℕ) (file : List UInt8) (as : List (Append ρ)) : List UInt8 :=
  as.foldl (append format kept) file

def Append.whole (a : Append ρ) : Bool :=
  match a.cut with
  | some n => (Utf8.encode (format.write a.value)).length ≤ n
  | none => true

def written (as : List (Append ρ)) : List ρ := (as.filter (Append.whole format)).map Append.value

end Log

end Irori.Automations
