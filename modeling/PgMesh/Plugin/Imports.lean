import PgMesh.Plugin.Aliases
import PgMesh.Plugin.GoTypes

/-!
# Imports of generated files

While the queries are built, imports are registered for their types; the packages
that the templates use are added at the end.  There is one import for each path:
the last registration counts.  A file then gets those imports whose qualifier
stands in front of a dot somewhere in its text, which a longer name, a comment and
a field can do as well.  An import without a name goes by a guess of the name of
its package, and sqlc's package has no name when no alias is given, although the
templates call it `internal`.
-/

namespace PgMesh.Plugin

open PgMesh.Foundation

structure FileOptions extends StoreOptions where
  ignoreMirrorError : Bool := false
  overrides : List ParsedGoType := []

/-! ## Import sets -/

structure ImportSpec where
  name : String
  path : String
  deriving DecidableEq, Repr

structure ImportSet where
  byPath : GoMap String ImportSpec
  nodup : (byPath.map Prod.fst).Nodup
  keyed : ∀ entry ∈ byPath, entry.1 ≠ "" ∧ entry.2.path = entry.1

def knownSelectorImports : GoMap String String :=
  [("driver", "database/sql/driver"), ("context", "context"), ("json", "encoding/json"),
    ("net", "net"), ("netip", "net/netip"), ("sql", "database/sql"), ("time", "time"),
    ("uuid", "github.com/google/uuid"), ("pgconn", "github.com/jackc/pgx/v5/pgconn"),
    ("pgtype", "github.com/jackc/pgx/v5/pgtype"),
    ("pgvector", "github.com/pgvector/pgvector-go"),
    ("pqtype", "github.com/sqlc-dev/pqtype")]

namespace ImportSet

def newImportSet : ImportSet := ⟨[], by simp, by simp⟩

def addNamed (s : ImportSet) (name path : String) : ImportSet :=
  if hpath : path = "" then s
  else
    { byPath := GoMap.set s.byPath path ⟨name, path⟩
      nodup := GoMap.nodup_keys_set s.nodup path _
      keyed := by
        intro entry hentry
        have hget := GoMap.get?_of_mem (GoMap.nodup_keys_set s.nodup path _) hentry
        rw [GoMap.get?_set] at hget
        split at hget
        case isTrue hkey =>
          rw [← Option.some.inj hget, ← hkey]
          exact ⟨hpath, rfl⟩
        case isFalse => exact s.keyed _ (GoMap.mem_of_get? hget) }

def add (s : ImportSet) (path : String) : ImportSet := s.addNamed "" path

/-- The range over the map visits the entries in any order; their paths differ. -/
def addForType (s : ImportSet) (typ : String) : ImportSet :=
  knownSelectorImports.foldl
    (fun s entry => if typeUsesQualifier typ entry.1 then s.add entry.2 else s) s

end ImportSet

/-! ## Registration -/

def addImportsForType (opts : FileOptions) (s : ImportSet) (typ : String) : ImportSet :=
  opts.overrides.foldl
    (fun s override =>
      if override.importPath = "" then s
      else
        let qualifier := typeQualifier override.typeName
        if qualifier = "" ∨ typeUsesQualifier typ qualifier = false then s
        else s.addNamed override.importAlias override.importPath)
    (s.addForType typ)

def importAlias (name : String) : String := if name = "" ∨ name = "internal" then "" else name

/-- The queries in the order of the request, and as they are generated. -/
structure QuerySpecs where
  built : List GeneratedQuery
  queries : List StoreQuery

/-- The types for which imports are registered, in order. -/
def QuerySpecs.types (specs : QuerySpecs) : List String :=
  (specs.built.flatMap fun query => query.results ++ query.params.map Argument.typ) ++
  specs.queries.flatMap fun query =>
    (query.route.elim [] fun route => route.operands.map RouteOperand.typ) ++
      query.shardArgs.elim [] fun shardArgs => shardArgs.fields.map GoField.typ

def QuerySpecs.imports (specs : QuerySpecs) (opts : FileOptions) : ImportSet :=
  specs.types.foldl (addImportsForType opts) .newImportSet

section Files

variable {ε : Type} [Unicode]

/-- The name that `usedImports` looks for in a file. -/
def ImportSpec.qualifier (imp : ImportSpec) : String :=
  if imp.name = "" then packageNameForImport imp.path else imp.name

end Files

/-! ## The last registration -/

namespace ImportSet

end ImportSet

section Exact

variable [Unicode]

/-- The map form is found under the qualifier of its type. -/
theorem GoType.parse_qualifier {ε : Type} [Unicode.Lawful] {g : GoType}
    {parsed : ParsedGoType} (hspec : g.spec = "") (hpath : g.path ≠ "")
    (h : g.parse (ε := ε) = .ok parsed)
    (hpkg : validRouteIdentifier
      (if g.pkg = "" then packageNameForImport g.path else g.pkg) = true) :
    (⟨parsed.importAlias, parsed.importPath⟩ : ImportSpec).qualifier =
      typeQualifier parsed.typeName := by
  have hne : (if g.pkg = "" then packageNameForImport g.path else g.pkg) ≠ "" := by
    intro hempty
    rw [hempty] at hpkg
    exact ne_nil_of_valid hpkg rfl
  unfold GoType.parse at h
  rw [if_neg (not_not.mpr hspec)] at h
  split at h
  · cases h
  · rw [if_neg (fun hboth => hpath hboth.1)] at h
    simp only [ne_eq, hpath, not_false_eq_true, and_true, if_pos hne] at h
    cases h
    rw [typeQualifier_decorated, typeQualifier_qualified hpkg, ImportSpec.qualifier]
    by_cases hgiven : g.pkg = ""
    · simp [hgiven]
    · by_cases hguess : g.pkg = packageNameForImport g.path
      · simp [hguess]
      · simp [hgiven, hguess]

/-! ## Wrong imports -/

end Exact

/-! ## The file of the read queries -/

section Read

open PgMesh.Topology (join)

end Read

/-! ## Moods without an alias -/

local instance importsUnicode : Unicode := Unicode.ascii

end PgMesh.Plugin
