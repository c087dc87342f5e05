import Irori.Rules.Document

/-!
# Expressions

CEL's syntax trees, the values they give, and compiling an expression as a person wrote it.
The parser and the interpreter are the `cel` package's own; they are parameters here.
-/

namespace Irori

/-- One character the way Rust's `{:?}` writes it inside quotes. -/
def debugChar (c : Char) : List Char :=
  match c with
  | '"' => ['\\', '"']
  | '\\' => ['\\', '\\']
  | '\n' => ['\\', 'n']
  | '\r' => ['\\', 'r']
  | '\t' => ['\\', 't']
  | '\x00' => ['\\', '0']
  | c => [c]

def debug (text : String) : String :=
  String.ofList ('"' :: text.toList.flatMap debugChar ++ ['"'])

inductive LiteralValue
  | boolean (value : Bool)
  | bytes (value : List UInt8)
  | double (value : ℚ)
  | int (value : Int)
  | null
  | string (value : String)
  | uint (value : Nat)
  deriving DecidableEq

/-- A CEL syntax tree. A comprehension is what a macro (`map`, `exists`, …) expands to. -/
inductive Expr
  | unspecified
  | literal (value : LiteralValue)
  | ident (name : String)
  | list (elements : List Expr)
  | map (keys values : List Expr)
  | struct (typeName : String) (fields : List String) (values : List Expr)
  | select (operand : Expr) (field : String)
  | comprehension (iterRange : Expr) (iterVar : String) (accuVar : String)
      (accuInit loopCond loopStep result : Expr)
  | call (funcName : String) (args : List Expr)
  | memberCall (target : Expr) (funcName : String) (args : List Expr)

/-- A call as it stands in an expression: the function CEL knows, and its arguments. -/
structure CallExpr where
  funcName : String
  args : List Expr

namespace Expr

def stringLiteral : Expr → Option String
  | literal (.string s) => some s
  | _ => none

mutual

/-- Every call anywhere in the expression, in the order a walk from the root meets them. -/
def calls : Expr → List CallExpr
  | unspecified => []
  | literal _ => []
  | ident _ => []
  | list elements => callsIn elements
  | map keys values => callsIn keys ++ callsIn values
  | struct _ _ values => callsIn values
  | select operand _ => calls operand
  | comprehension iterRange _ _ accuInit loopCond loopStep result =>
    calls iterRange ++ calls accuInit ++ calls loopCond ++ calls loopStep ++ calls result
  | call funcName args => ⟨funcName, args⟩ :: callsIn args
  | memberCall target funcName args => ⟨funcName, args⟩ :: (callsIn args ++ calls target)

def callsIn : List Expr → List CallExpr
  | [] => []
  | e :: es => calls e ++ callsIn es

end

end Expr

/-- A value CEL works with. Floats are exact rationals here, so every one is finite; whatever
isn't a plain value (a list, a map, a moment, …) is kept by how it prints. -/
inductive Value
  | bool (value : Bool)
  | int (value : Int)
  | uint (value : Nat)
  | float (value : ℚ)
  | string (value : String)
  | null
  | other (shown : String)
  deriving DecidableEq

def Value.debug : Value → String
  | .bool b => s!"Bool({b})"
  | .int i => s!"Int({i})"
  | .uint u => s!"UInt({u})"
  | .float q => s!"Float({q})"
  | .string s => s!"String({Irori.debug s})"
  | .null => "Null"
  | .other shown => shown

/-- What `var(…)` is called inside CEL, where `var` is a reserved word. -/
def varFn : String := "irori_var"

/-- The name an author wrote for a function CEL knows by another name. -/
def authorName (name : String) : String := if name = varFn then "var" else name

structure Unicode where
  isAlphanumeric : Char → Bool
  isWhitespace : Char → Bool

def Unicode.wordChar (u : Unicode) (c : Char) : Bool := u.isAlphanumeric c || c == '_'

/-- The source from `rest` on, `before` the character in front of it and `quote` the string
literal it is inside of. Every round takes a character, so the source's length is fuel enough. -/
def renameFrom (u : Unicode) : Nat → Option Char → Option Char → List Char → List Char
  | 0, _, _, rest => rest
  | _ + 1, _, _, [] => []
  | fuel + 1, _, some q, c :: rest =>
    match c, rest with
    | '\\', next :: rest => c :: next :: renameFrom u fuel (some next) (some q) rest
    | _, _ => c :: renameFrom u fuel (some c) (if c = q then none else some q) rest
  | fuel + 1, before, none, c :: rest =>
    if c = '"' ∨ c = '\'' then c :: renameFrom u fuel (some c) (some c) rest
    else
      let startsWord := !(before.any u.wordChar)
      let digits := (c :: rest).takeWhile Char.isDigit
      let afterDigits := (c :: rest).dropWhile Char.isDigit
      if startsWord ∧ c.isDigit ∧ before ≠ some '.' then
        -- A whole number is written as a decimal, so every number is the same kind.
        let whole := !(afterDigits.head?.any (fun next => u.wordChar next || next == '.'))
        digits ++ (if whole then ['.', '0'] else []) ++
          renameFrom u fuel digits.getLast? none afterDigits
      else if startsWord ∧ ['v', 'a', 'r'].isPrefixOf (c :: rest) ∧
          !(rest[2]?.any u.wordChar) ∧
          ((rest.drop 2).dropWhile u.isWhitespace).head? = some '(' then
        varFn.toList ++ renameFrom u fuel (some 'r') none (rest.drop 2)
      else c :: renameFrom u fuel (some c) none rest

/-- `var(` outside string literals becomes `irori_var(`, and a whole number `30` becomes `30.0`;
everything else is kept as written. -/
def renameReserved (u : Unicode) (source : String) : String :=
  String.ofList (renameFrom u source.length none none source.toList)

structure Read where
  entityId : EntityId
  availability : Option Availability
  /-- Which of its values was read, when not the main one. -/
  field : Option ObjectId
  value : Json

abbrev Functions := String → List Value → List Read → Except String Value × List Read

/-- The `cel` package: its parser, and its interpreter over bound functions. -/
structure Cel where
  unicode : Unicode
  parse : String → Except String Expr
  execute : Expr → Functions → List Read → Except String Value × List Read

def Cel.compile (cel : Cel) (source : ExprString) : Except String Expr :=
  cel.parse (renameReserved cel.unicode source.text)

end Irori
