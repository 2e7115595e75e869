import PgMesh.Plugin.Options
import PgMesh.Topology.Config

/-!
# Go types of overrides

An override gives its Go type as one text, `example.com/pkg.Type`, or as a map
with the import path, the package and the name of the type.  The package of a type
is what stands in front of the first dot; the name of an imported package is
guessed from the last elements of its path.
-/

namespace PgMesh.Plugin

open PgMesh.Foundation

/-! ## Paths -/

/-- One element of a path, in the loop of `filepath.Clean`. -/
def cleanElement (rooted : Bool) (out : List String) (element : String) : List String :=
  if element = "" ∨ element = "." then out
  else if element ≠ ".." then out ++ [element]
  else if out.getLast?.any (· ≠ "..") then out.dropLast
  else if rooted then out
  else out ++ [".."]

/-- `filepath.Clean` with `/` as the separator. -/
def cleanPath (path : String) : String :=
  let rooted := hasPrefix path "/"
  let cleaned := Topology.join ((split path '/').foldl (cleanElement rooted) []) "/"
  if rooted then "/" ++ cleaned else if cleaned = "" then "." else cleaned

/-- `filepath.Dir`. -/
def directoryName (path : String) : String :=
  cleanPath (String.ofList (path.toList.rdropWhile (· != '/')))

/-- `strings.Contains`. -/
def contains : List Char → List Char → Bool
  | [], sub => sub.isEmpty
  | c :: s, sub => sub.isPrefixOf (c :: s) || contains s sub

section Names

variable [Unicode]

def importPackageRune (r : Char) : Char :=
  if isIdentifierChar r then Unicode.toLower r else '_'

def isDigits (s : String) : Bool := s.toList.all Unicode.isDigit && s ≠ ""

def trimGo (s : String) : String := trimSuffix (trimPrefix s "go-") "-go"

def packageNameForImport (path : String) : String :=
  let base := trimGo (baseName path)
  let name :=
    if hasPrefix base "v" && isDigits (trimPrefix base "v") then
      trimGo (baseName (directoryName path))
    else base
  String.ofList (name.toList.map importPackageRune)

end Names

/-! ## Qualifiers of types -/

/-- The loop of `typeQualifier`. -/
def elementType : List Char → List Char
  | '[' :: ']' :: typ => elementType typ
  | '*' :: typ => elementType typ
  | typ => typ

def typeQualifier (typ : String) : String :=
  match cut (String.ofList (elementType typ.toList)) '.' with
  | some (before, _) => before
  | none => ""

def typeUsesQualifier (typ qualifier : String) : Bool :=
  contains typ.toList (qualifier ++ ".").toList ||
    contains typ.toList ("*" ++ qualifier ++ ".").toList ||
    contains typ.toList ("[]" ++ qualifier ++ ".").toList

/-! ## The two forms -/

structure GoType where
  path : String := ""
  pkg : String := ""
  name : String := ""
  pointer : Bool := false
  slice : Bool := false
  spec : String := ""

structure ParsedGoType where
  typeName : String
  importPath : String
  importAlias : String
  deriving DecidableEq, Repr

/-- The names of the typed basic types in `types.Typ`. -/
def basicTypes : List String :=
  ["bool", "int", "int8", "int16", "int32", "int64", "uint", "uint8", "uint16", "uint32",
    "uint64", "uintptr", "float32", "float64", "complex64", "complex128", "string"]

section Parse

variable {ε : Type} [Unicode]

omit [Unicode] in
def parseGoTypeSpec (spec : String) : Except (GoError ε) ParsedGoType :=
  if '.' ∉ spec.toList ∧ '/' ∉ spec.toList then
    if spec ∈ basicTypes then .ok ⟨spec, "", ""⟩
    else .error (.errorf "go_type specifier %q is not a Go basic type" [.text spec])
  else if '.' ∉ spec.toList then
    .error (.errorf "go_type specifier %q must use package.type format" [.text spec])
  else
    let typeName := trimGo (String.ofList (spec.toList.rtakeWhile (· != '/')))
    let importPath := String.ofList (spec.toList.rdropWhile (· != '.')).dropLast
    if hasPrefix spec "*" then
      .ok ⟨"*" ++ trimPrefix typeName "*", trimPrefix importPath "*", ""⟩
    else .ok ⟨typeName, importPath, ""⟩

def GoType.parse (g : GoType) : Except (GoError ε) ParsedGoType :=
  if g.spec ≠ "" then parseGoTypeSpec g.spec
  else if g.name = "" then .error (.new "go_type must specify a nonempty type")
  else if g.path = "" ∧ g.pkg ≠ "" then
    .error (.new "go_type package requires an import path")
  else
    let pkg := if g.pkg = "" ∧ g.path ≠ "" then packageNameForImport g.path else g.pkg
    let typeName := if pkg ≠ "" then pkg ++ "." ++ g.name else g.name
    let importAlias :=
      if pkg ≠ "" ∧ g.pkg ≠ "" ∧ g.pkg ≠ packageNameForImport g.path then g.pkg else ""
    let typeName := if g.pointer then "*" ++ typeName else typeName
    let typeName := if g.slice then "[]" ++ typeName else typeName
    .ok ⟨typeName, g.path, importAlias⟩

/-- The qualifier that `validateOverrideImports` takes for an override. -/
def ParsedGoType.qualifier (parsed : ParsedGoType) : String :=
  if parsed.importAlias ≠ "" then parsed.importAlias
  else if typeQualifier parsed.typeName ≠ "" then typeQualifier parsed.typeName
  else packageNameForImport parsed.importPath

end Parse

/-! ## Qualified names -/

theorem typeQualifier_slice (typ : String) :
    typeQualifier ("[]" ++ typ) = typeQualifier typ := by
  have hlist : ("[]" ++ typ).toList = '[' :: ']' :: typ.toList := by simp
  rw [typeQualifier, hlist]
  rfl

theorem typeQualifier_pointer (typ : String) :
    typeQualifier ("*" ++ typ) = typeQualifier typ := by
  have hlist : ("*" ++ typ).toList = '*' :: typ.toList := by simp
  rw [typeQualifier, hlist]
  rfl

theorem elementType_cons {c : Char} (hslice : c ≠ '[') (hpointer : c ≠ '*') (typ : List Char) :
    elementType (c :: typ) = c :: typ := by
  unfold elementType
  split
  case h_1 hsame => exact absurd (List.cons.inj hsame).1 hslice
  case h_2 hsame => exact absurd (List.cons.inj hsame).1 hpointer
  case h_3 => rfl

theorem typeQualifier_qualified [Unicode] [Unicode.Lawful] {pkg : String}
    (hpkg : validRouteIdentifier pkg = true) (name : String) :
    typeQualifier (pkg ++ "." ++ name) = pkg := by
  have hother : ∀ d : Char, d.toNat < 128 → (d.isAlpha || d.isDigit || d == '_') = false →
      d ∉ pkg.toList := by
    intro d hd hnone hmem
    have hword := isIdentifierChar_of_valid hpkg hmem
    rw [isIdentifierChar_ascii hd, hnone] at hword
    cases hword
  obtain ⟨c, rest, hlist⟩ := List.exists_cons_of_ne_nil (ne_nil_of_valid hpkg)
  have hdots : ∀ c ∈ pkg.toList, (c != '.') = true := by
    intro c hc
    have hdot := hother '.' (by decide) (by decide)
    exact bne_iff_ne.mpr fun hsame => hdot (hsame ▸ hc)
  have htext : (pkg ++ "." ++ name).toList = pkg.toList ++ '.' :: name.toList := by simp
  have helement : elementType (pkg.toList ++ '.' :: name.toList) =
      pkg.toList ++ '.' :: name.toList := by
    have hslice := hother '[' (by decide) (by decide)
    have hpointer := hother '*' (by decide) (by decide)
    rw [hlist, List.mem_cons, not_or] at hslice hpointer
    rw [hlist, List.cons_append]
    exact elementType_cons (Ne.symm hslice.1) (Ne.symm hpointer.1) _
  rw [typeQualifier, htext, helement, cut, String.toList_ofList,
    List.dropWhile_append_of_pos hdots, List.takeWhile_append_of_pos hdots]
  simp

theorem typeQualifier_decorated (pointer slice : Bool) (typ : String) :
    typeQualifier (if slice = true then "[]" ++ (if pointer = true then "*" ++ typ else typ)
      else if pointer = true then "*" ++ typ else typ) = typeQualifier typ := by
  cases pointer <;> cases slice <;> simp [typeQualifier_slice, typeQualifier_pointer]

end PgMesh.Plugin
