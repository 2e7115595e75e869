import PgMesh.Foundation.GoMap

/-!
# Names in generated code

The generator derives Go identifiers from the column names of sqlc's request.
Strings are handled rune by rune; the character tables of Go's package
`unicode` are an argument of the development.
-/

namespace PgMesh.Plugin

open PgMesh.Foundation

/-- The functions of package `unicode` that the generator calls. -/
class Unicode where
  isLetter : Char → Bool
  isDigit : Char → Bool
  isUpper : Char → Bool
  toUpper : Char → Char
  toLower : Char → Char

/-- The tables restricted to ASCII. -/
@[reducible] def Unicode.ascii : Unicode where
  isLetter := Char.isAlpha
  isDigit := Char.isDigit
  isUpper := Char.isUpper
  toUpper := Char.toUpper
  toLower := Char.toLower

/-- The options that the modelled functions read. -/
structure Options where
  queryParameterLimit : Nat
  rename : GoMap String String
  emitParamsStructPointers : Bool
  emitResultStructPointers : Bool
  internalImportPath : String
  internalImportAlias : String

/-! ## Strings -/

def hasPrefix (s start : String) : Bool := start.toList.isPrefixOf s.toList

/-- `strings.CutPrefix`. -/
def cutPrefix (s start : String) : Option String :=
  if hasPrefix s start then some (String.ofList (s.toList.drop start.toList.length))
  else none

/-- `strings.Cut` at a single character. -/
def cut (s : String) (separator : Char) : Option (String × String) :=
  match s.toList.dropWhile (· != separator) with
  | [] => none
  | _ :: rest =>
      some (String.ofList (s.toList.takeWhile (· != separator)), String.ofList rest)

/-- `strings.Split` at a single character. -/
def split (s : String) (separator : Char) : List String :=
  (s.toList.splitOn separator).map String.ofList

/--
`strings.EqualFold` with an ASCII pattern in lower case that has no `k` and no
`s`, the two letters that also fold to a character outside ASCII.
-/
def equalFold (s pattern : String) : Bool := s.toList.map Char.toLower == pattern.toList

section Names

variable [Unicode]

/-- `strings.ToLower`. -/
def toLower (s : String) : String := String.ofList (s.toList.map Unicode.toLower)

def title (s : String) : String :=
  match s.toList with
  | [] => s
  | r :: runes => String.ofList (Unicode.toUpper r :: runes)

def lowerTitle (s : String) : String :=
  match s.toList with
  | [] => s
  | r :: runes => String.ofList (Unicode.toLower r :: runes)

def goKeywords : List String :=
  ["break", "default", "func", "interface", "select", "case", "defer", "go", "map",
    "struct", "chan", "else", "goto", "package", "switch", "const", "fallthrough",
    "if", "range", "type", "continue", "for", "import", "return", "var"]

def escape (name : String) : String :=
  if name ∈ goKeywords then name ++ "_" else name

/-- The maximal runs of letters and digits; `current` is the run being read. -/
def splitRunes : List Char → List Char → List String
  | [], [] => []
  | [], current => [String.ofList current]
  | r :: runes, current =>
      if Unicode.isLetter r || Unicode.isDigit r then splitRunes runes (current ++ [r])
      else
        match current with
        | [] => splitRunes runes []
        | current => String.ofList current :: splitRunes runes []

def splitIdentifier (name : String) : List String := splitRunes name.toList []

def structName (name : String) (opts : Options) : String :=
  let replacement := GoMap.getD opts.rename name ""
  if replacement ≠ "" then replacement
  else
    let parts := (splitIdentifier name).map fun part =>
      let lower := toLower part
      if equalFold lower "id" then "ID" else title lower
    let result := String.join parts
    if result.toList.head?.any Unicode.isDigit then "_" ++ result else result

def argName (name : String) : String :=
  String.join ((split name '_').zipIdx.map fun (part, idx) =>
    if idx = 0 then toLower part
    else if equalFold part "id" then "ID"
    else title part)

def routeMethodName (name : String) (opts : Options) : String :=
  let replacement := GoMap.getD opts.rename name ""
  if replacement ≠ "" then replacement
  else
    String.join ((splitIdentifier name).map fun part =>
      if equalFold part "p2p" then "P2P"
      else if part.toList.any Unicode.isUpper then title part
      else structName part opts)

def validRouteIdentifier (value : String) : Bool :=
  value ≠ "" && value.toList.zipIdx.all fun (r, index) =>
    Unicode.isLetter r || r == '_' || (index > 0 && Unicode.isDigit r)

end Names

/-! ## Names of sqlc declarations -/

def internalQualifier (opts : Options) : String :=
  if opts.internalImportAlias ≠ "" then opts.internalImportAlias else "internal"

def targetName (opts : Options) (name : String) : String :=
  if opts.internalImportPath = "" then name else internalQualifier opts ++ "." ++ name

end PgMesh.Plugin
