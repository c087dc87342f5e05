import Irori.Types
import Irori.Lib.Patterns

/-!
# The strings of a manifest

Versions, paths and hosts as an extension's manifest writes them: for each its check, and its JSON
schema beside it.
-/

namespace Irori.Manifest

open Patterns RegularExpression

inductive Pattern
  /-- `^…$` -/
  | whole (r : RegularExpression Char)
  /-- `(^|lead)…$` -/
  | ending (lead r : RegularExpression Char)

def Pattern.test : Pattern → List Char → Bool
  | .whole r, text => r.rmatch text
  | .ending lead r, text => r.rmatch text || text.tails.any (lead * r).rmatch

/-- A schema for strings: one of some patterns, each with the most characters there may be. -/
structure StringSchema where
  anyOf : List (Pattern × Option ℕ)
  not : Option Pattern

def StringSchema.accepts (schema : StringSchema) (value : String) : Bool :=
  schema.anyOf.any (fun (pattern, maxLength) =>
    pattern.test value.toList && maxLength.all (value.length ≤ ·)) &&
  !schema.not.any (·.test value.toList)

def digits : List Char := between '0' '9'

def lowercase : List Char := between 'a' 'z'

def alphanumerics : List Char := between 'A' 'Z' ++ lowercase ++ digits

def byteLen (text : List Char) : ℕ := (text.map Char.utf8Size).sum

/-- A text up to the first `sep`, and what follows it. -/
def splitOnce (sep text : List Char) : List Char × Option (List Char) :=
  match text.dropInfix? sep with
  | some (before, after) => (before, some after)
  | none => (text, none)

abbrev Release := ℕ × ℕ × ℕ

def number : RegularExpression Char :=
  char '0' + oneOf (between '1' '9') * upTo 8 (oneOf digits)

def prereleaseIdent : RegularExpression Char :=
  char '0' + oneOf (between '1' '9') * (oneOf digits).star +
    (oneOf digits).star * (oneOf (alphanumerics.filter (!·.isDigit) ++ ['-']) *
      (oneOf (alphanumerics ++ ['-'])).star)

def releasePattern : RegularExpression Char :=
  number * (char '.' * (number * (char '.' * number)))

def isNumber (part : List Char) : Bool :=
  !part.isEmpty && byteLen part ≤ 9 && part.all Char.isDigit &&
    !(1 < byteLen part && part.head? = some '0')

def isIdent (id : List Char) : Bool :=
  !id.isEmpty && id.all (fun c => c.isAlphanum || c == '-') &&
    !(1 < byteLen id && id.head? = some '0' && id.all Char.isDigit)

def releaseOk (release : List Char) : Bool :=
  match release.splitOn '.' with
  | [major, minor, patch] => isNumber major && isNumber minor && isNumber patch
  | _ => false

def isReleaseVersion (version : String) : Bool :=
  let chars := version.toList
  if 64 < byteLen chars || chars.contains '+' then false
  else
    let (release, pre) := splitOnce ['-'] chars
    releaseOk release && pre.all fun pre => (pre.splitOn '.').all isIdent

def parseU32 (part : List Char) : Option ℕ :=
  let n := part.foldl (fun n c => 10 * n + (c.toNat - '0'.toNat)) 0
  if n < 2 ^ 32 then some n else none

def parseNumber (part : List Char) : Option ℕ := if isNumber part then parseU32 part else none

def parseRelease (value : List Char) : Option Release :=
  match value.splitOn '.' with
  | [major, minor, patch] => do
    let major ← parseNumber major
    let minor ← parseNumber minor
    let patch ← parseNumber patch
    return (major, minor, patch)
  | _ => none

def parseVersion (value : String) : Except IdError (Release × Option (List Char)) :=
  let chars := value.toList
  if !isReleaseVersion value && 64 < byteLen chars then
    .error ⟨"version", value, "must be at most 64 characters"⟩
  else if !isReleaseVersion value && chars.contains '+' then
    .error ⟨"version", value,
      "build metadata (`+...`) isn't allowed; use a pre-release (`-...`) instead"⟩
  else
    let (release, pre) := splitOnce ['-'] chars
    match parseRelease release with
    | none => .error ⟨"version", value, "must be MAJOR.MINOR.PATCH with an optional " ++
        "-pre-release, like 1.4.0 or 0.3.0-beta.1"⟩
    | some release =>
      if pre.all fun pre => (pre.splitOn '.').all isIdent then .ok (release, pre)
      else .error ⟨"version", value, "the pre-release must be dot-separated words of " ++
        "letters, digits, and `-`, with no leading zeros in numbers"⟩

def versionSchema : StringSchema where
  anyOf := [(.whole (releasePattern *
    atMostOnce (literal ['-'] * (prereleaseIdent * (char '.' * prereleaseIdent).star))), some 64)]
  not := none

def matchesNothing (value : String) : IdError :=
  ⟨"Irori version requirement", value,
    "matches no version: the upper bound must be above the lower bound"⟩

def Release.before (a b : Release) : Bool :=
  a.1 < b.1 || (a.1 == b.1 && (a.2.1 < b.2.1 || (a.2.1 == b.2.1 && a.2.2 < b.2.2)))

def parseRequirement (value : String) : Except IdError (Release × Option Release) :=
  let invalid : IdError := ⟨"Irori version requirement", value,
    "must be `>=A.B.C` or `>=A.B.C, <X.Y.Z`, like `>=0.1.0, <0.2.0`"⟩
  match value.toList.dropPrefix? ">=".toList with
  | none => .error invalid
  | some rest =>
    let (lower, upper) := splitOnce ", <".toList rest
    match parseRelease lower with
    | none => .error invalid
    | some lower =>
      match upper with
      | none => .ok (lower, none)
      | some upper =>
        match parseRelease upper with
        | none => .error invalid
        | some upper =>
          if lower.before upper then .ok (lower, some upper) else .error (matchesNothing value)

def coreRequirementSchema : StringSchema where
  anyOf := [(.whole (literal ">=".toList *
    (releasePattern * atMostOnce (literal ", <".toList * releasePattern))), none)]
  not := none

def segment : RegularExpression Char :=
  oneOf (alphanumerics ++ ['_']) * (oneOf (alphanumerics ++ ['.', '_', '-'])).star

def isSegment (segment : List Char) : Bool :=
  (segment.head?.any fun c => c.isAlphanum || c == '_') &&
    segment.all fun c => c.isAlphanum || ['.', '_', '-'].contains c

def checkPath (what shape : String) (valid : List Char → Bool) (value : String) :
    Except IdError Unit :=
  if 255 < byteLen value.toList then .error ⟨what, value, "must be at most 255 characters"⟩
  else if valid value.toList then .ok () else .error ⟨what, value, shape⟩

def checkPackagePath : String → Except IdError Unit :=
  checkPath "package path" ("must be a relative path like `bin/esphome`: `/`-separated names of " ++
    "letters, digits, `.`, `_`, `-`, none starting with `.`")
    fun value => (value.splitOn '/').all isSegment

def packagePathSchema : StringSchema where
  anyOf := [(.whole (segment * (char '/' * segment).star), some 255)]
  not := none

def checkSerialPath : String → Except IdError Unit :=
  checkPath "serial device" "must be a device path under /dev, like `/dev/ttyUSB0`"
    fun value => (value.dropPrefix? "/dev/".toList).any fun rest => (rest.splitOn '/').all isSegment

def serialPathSchema : StringSchema where
  anyOf := [(.whole (literal "/dev".toList * onceOrMore (char '/' * segment)), some 255)]
  not := none

def segmentsOk (rest : List Char) : Bool :=
  rest.isEmpty || (rest.dropPrefix? ['/']).any fun rest => (rest.splitOn '/').all isSegment

def config : List Char := "$CONFIG".toList

def data : List Char := "$DATA".toList

def checkHostPath : String → Except IdError Unit :=
  checkPath "host path" ("must be `$CONFIG`, `$DATA`, or an absolute path like `/home/pi`, " ++
    "optionally followed by `/`-separated names (no trailing `/`, no names starting with `.`)")
    fun value =>
      match (value.dropPrefix? config).or (value.dropPrefix? data) with
      | some rest => segmentsOk rest
      | none => value == ['/'] || (!value.isEmpty && segmentsOk value)

def hostPathSchema : StringSchema where
  anyOf := [(.whole ((literal config + literal data) * (char '/' * segment).star + char '/' +
    onceOrMore (char '/' * segment)), some 255)]
  not := none

structure HostPath where
  text : String
  valid : (checkHostPath text).isOk = true

def HostPath.isIroriFolder (path : HostPath) : Bool :=
  config.isPrefixOf path.text.toList || data.isPrefixOf path.text.toList

structure Permissions where
  hostFs : List HostPath
  hostShell : Bool

def Permissions.fullAccess (p : Permissions) : Bool :=
  p.hostShell || p.hostFs.any (!·.isIroriFolder)

def label : RegularExpression Char :=
  oneOf (lowercase ++ digits) * atMostOnce (upTo 61 (oneOf (lowercase ++ digits ++ ['-'])) *
    oneOf (lowercase ++ digits))

def topLabel : RegularExpression Char :=
  oneOf lowercase * atMostOnce (upTo 61 (oneOf (lowercase ++ digits ++ ['-'])) *
    oneOf (lowercase ++ digits))

def localDomains : List (List Char) :=
  ["local".toList, "localhost".toList, "home.arpa".toList, "internal".toList, "lan".toList,
    "home".toList]

def isLabel (label : List Char) : Bool :=
  1 ≤ byteLen label && byteLen label ≤ 63 &&
    label.all (fun c => c.isLower || c.isDigit || c == '-') &&
    label.head? != some '-' && label.getLast? != some '-'

def checkNetworkHost (value : String) : Except IdError Unit :=
  let host := (value.toList.dropPrefix? ['*', '.']).getD value.toList
  if 253 < byteLen host || !(host.splitOn '.').all isLabel then
    .error ⟨"network host", value, "must be a lowercase hostname like `api.example.com` or " ++
      "`*.example.com` (labels of a-z, 0-9, `-`, up to 63 characters each, 253 in total)"⟩
  else if !host.contains '.' ||
      !((host.splitOn '.').getLastD host).head?.any Char.isLower then
    .error ⟨"network host", value, "must be an internet hostname with a domain, like " ++
      "`api.example.com`; for IP addresses and devices on your network, use `lan = true`"⟩
  else if localDomains.any fun d => host == d || ('.' :: d).isSuffixOf host then
    .error ⟨"network host", value,
      "is a local-network name; use `lan = true` for devices on your network"⟩
  else .ok ()

def networkHostSchema : StringSchema where
  anyOf := [(.whole (onceOrMore (label * char '.') * topLabel), some 253),
    (.whole (literal ['*', '.'] * (onceOrMore (label * char '.') * topLabel)), some 255)]
  not := some (.ending (char '.') (localDomains.foldr (fun d r => literal d + r) 0))

end Irori.Manifest
