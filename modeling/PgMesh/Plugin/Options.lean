import PgMesh.Plugin.Annotation

/-!
# Options of the plugin

The user chooses the names of the package, of the generated files and of four
declarations, and says where sqlc's own package is.  `validateOptions` refuses
names that are no identifiers or that meet a declaration or an import that the
generator writes in any case.
-/

namespace PgMesh.Plugin

open PgMesh.Foundation
open PgMesh.Topology (isSpace)

structure StoreOptions extends Options where
  outputFileName : String
  packageName : String
  exportSQLCTypes : Bool
  constructorName : String
  storeInterfaceName : String
  runtimeImportPath : String
  resolverInterfaceName : String
  shardedConstructor : String

/-! ## Paths -/

/-- `filepath.Base` with `/` as the separator. -/
def baseName (path : String) : String :=
  if path = "" then "."
  else
    let trimmed := path.toList.rdropWhile (· == '/')
    if trimmed = [] then "/" else String.ofList (trimmed.rtakeWhile (· != '/'))

/-- `filepath.Ext`. -/
def extension (path : String) : String :=
  let tail := path.toList.rtakeWhile fun c => c != '.' && c != '/'
  let rest := path.toList.rdropWhile fun c => c != '.' && c != '/'
  if rest.getLast? = some '.' then String.ofList ('.' :: tail) else ""

/-- `strings.ContainsAny`. -/
def containsAny (s : String) (chars : List Char) : Bool := s.toList.any (chars.contains ·)

/-- `unicode.IsControl`. -/
def isControl (c : Char) : Bool := c.toNat < 32 || (127 ≤ c.toNat && c.toNat < 160)

/-! ## Declarations that are always generated -/

def generatedOptionDeclaration : String := "generated option constructor"

def sqlcDeclaration : String := "sqlc declaration"

def fixedGeneratedDeclarations (includeSQLC : Bool) : GoMap String String :=
  [("QueryOption", "generated query option"),
    ("ReadFromPrimary", generatedOptionDeclaration),
    ("ShardedOption", "generated sharded option"),
    ("Singleton", "generated singleton constructor"),
    ("SingletonOption", "generated singleton option"),
    ("StoreOption", "generated store option"),
    ("Topology", "generated topology"),
    ("WithDatabaseName", generatedOptionDeclaration),
    ("WithLogger", generatedOptionDeclaration),
    ("WithMeterProvider", generatedOptionDeclaration),
    ("WithReadReplicas", generatedOptionDeclaration),
    ("WithReplicaSet", generatedOptionDeclaration),
    ("WithTracerProvider", generatedOptionDeclaration),
    ("WithTx", generatedOptionDeclaration),
    ("WithVirtualShardMapping", generatedOptionDeclaration),
    ("WithWriteMirrors", generatedOptionDeclaration)] ++
  if includeSQLC then
    [("DBTX", sqlcDeclaration), ("New", sqlcDeclaration), ("Queries", sqlcDeclaration),
      ("Querier", sqlcDeclaration)]
  else []

/-! ## Validation -/

section Validate

variable {ε : Type} [Unicode]

def validateImportPath (option path : String) : Except (GoError ε) Unit :=
  if path = "" ∨ trimSpace path ≠ path ∨ containsAny path ['\x22', '\\'] ∨
      path.toList.any fun r => isSpace r || isControl r then
    .error (.errorf "%s %q is invalid" [.text option, .text path])
  else .ok ()

def validateIdentifier (option : FormatArg (GoError ε)) (value : String)
    (exported : Bool) : Except (GoError ε) Unit :=
  if !validRouteIdentifier value || value ∈ goKeywords then
    .error (.errorf "%s %q must be a valid Go identifier" [option, .text value])
  else if exported && !value.toList.head?.any Unicode.isUpper then
    .error (.errorf "%s %q must be an exported Go identifier" [option, .text value])
  else .ok ()

def validateOutputFileName (name : String) : Except (GoError ε) Unit :=
  if baseName name ≠ name ∨ containsAny name ['/', '\\'] ∨ name = "." ∨ name = ".." ∨
      extension name ≠ ".go" ∨ hasPrefix name "." ∨ hasPrefix name "_" ∨
      hasSuffix name "_test.go" then
    .error (.errorf ("output_file_name %q must be a visible base filename ending in .go " ++
      "and not _test.go") [.text name])
  else .ok ()

/-- The qualifiers of the packages that generated files can always import. -/
def generatedQualifiers : List String :=
  ["context", "errors", "fmt", "metric", "pgmesh", "pgx", "slog", "sql", "trace"]

def validateInternalImportAlias (opts : StoreOptions) : Except (GoError ε) Unit :=
  if opts.internalImportAlias = "" then .ok ()
  else if opts.internalImportPath = "" then
    .error (.new "internal_import_alias requires internal_import_path")
  else do
    validateIdentifier (.text "internal_import_alias") opts.internalImportAlias false
    if opts.internalImportAlias ∈ generatedQualifiers then
      .error (.errorf "internal_import_alias %q conflicts with a generated import"
        [.text opts.internalImportAlias])
    else .ok ()

/-- The packages that generated files can always import, with their paths. -/
def generatedImports (opts : StoreOptions) : List (String × String) :=
  [("context", "context"), ("errors", "errors"), ("fmt", "fmt"),
    ("metric", "go.opentelemetry.io/otel/metric"), ("pgmesh", opts.runtimeImportPath),
    ("pgx", "github.com/jackc/pgx/v5"), ("slog", "log/slog"), ("sql", "database/sql"),
    ("trace", "go.opentelemetry.io/otel/trace")] ++
  if opts.internalImportPath = "" then []
  else [(internalQualifier opts.toOptions, opts.internalImportPath)]

def checkGeneratedImports : List (String × String) → GoMap String String →
    Except (GoError ε) Unit
  | [], _ => .ok ()
  | (qualifier, path) :: imports, importPaths =>
      match GoMap.get? importPaths path with
      | some previous =>
          if previous ≠ qualifier then
            .error (.errorf "generated import alias %q conflicts with %q for path %q"
              [.text qualifier, .text previous, .text path])
          else checkGeneratedImports imports (GoMap.set importPaths path qualifier)
      | none => checkGeneratedImports imports (GoMap.set importPaths path qualifier)

/-- The four declarations whose names the user chooses, with their options. -/
def publicNames (opts : StoreOptions) : List (String × String) :=
  [("constructor", opts.constructorName), ("store_interface", opts.storeInterfaceName),
    ("resolver_interface", opts.resolverInterfaceName),
    ("sharded_constructor", opts.shardedConstructor)]

def checkPublicNames (fixed : GoMap String String) : List (String × String) →
    GoMap String String → Except (GoError ε) Unit
  | [], _ => .ok ()
  | (option, value) :: names, seenNames => do
      validateIdentifier (.text option) value true
      if (GoMap.get? fixed value).isSome then
        .error (.errorf "%s %q conflicts with a generated declaration"
          [.text option, .text value])
      else
        match GoMap.get? seenNames value with
        | some previous =>
            .error (.errorf "%s %q conflicts with %s"
              [.text option, .text value, .text previous])
        | none => checkPublicNames fixed names (GoMap.set seenNames value option)

def checkRename : List (String × String) → Except (GoError ε) Unit
  | [] => .ok ()
  | (source, renamed) :: entries =>
      if source = "" then .error (.new "rename contains an empty SQL identifier")
      else do
        validateIdentifier (.sprintf "rename[%q]" [source]) renamed false
        checkRename entries

def validateInternalImportPath (opts : StoreOptions) : Except (GoError ε) Unit :=
  if opts.internalImportPath = "" then .ok ()
  else validateImportPath "internal_import_path" opts.internalImportPath

def validateExport (opts : StoreOptions) : Except (GoError ε) Unit :=
  if opts.exportSQLCTypes && opts.internalImportPath = "" then
    .error (.new "export_sqlc_types requires internal_import_path")
  else .ok ()

def validateOptions (opts : StoreOptions) : Except (GoError ε) Unit := do
  validateOutputFileName opts.outputFileName
  validateIdentifier (.text "package") opts.packageName false
  validateImportPath "runtime_import_path" opts.runtimeImportPath
  validateInternalImportPath opts
  validateInternalImportAlias opts
  validateExport opts
  checkGeneratedImports (generatedImports opts) []
  checkPublicNames (fixedGeneratedDeclarations (opts.internalImportPath = ""))
    (publicNames opts) []
  checkRename opts.rename

/-! ## Accepted options -/

theorem validateIdentifier_ok {option : FormatArg (GoError ε)} {value : String}
    {exported : Bool} (h : validateIdentifier option value exported = .ok ()) :
    validRouteIdentifier value = true ∧ value ∉ goKeywords := by
  unfold validateIdentifier at h
  split at h
  case isTrue => cases h
  case isFalse hvalid => simpa using hvalid

theorem checkPublicNames_ok {fixed seenNames : GoMap String String}
    {names : List (String × String)}
    (h : checkPublicNames (ε := ε) fixed names seenNames = .ok ()) :
    (names.map Prod.snd).Nodup ∧
      (∀ value ∈ names.map Prod.snd, GoMap.get? seenNames value = none) ∧
      ∀ value ∈ names.map Prod.snd, GoMap.get? fixed value = none := by
  induction names generalizing seenNames with
  | nil => simp
  | cons entry names ih =>
      obtain ⟨option, value⟩ := entry
      rw [checkPublicNames] at h
      obtain ⟨-, -, h⟩ := bind_eq_ok.mp h
      split at h
      case isTrue => cases h
      case isFalse hfixed =>
        split at h
        case h_1 => cases h
        case h_2 hunseen =>
          obtain ⟨hnodup, hfresh, hrest⟩ := ih h
          have hcons := GoMap.nodup_cons_of_missing hunseen hnodup hfresh
          refine ⟨hcons.1, hcons.2, List.forall_mem_cons.mpr ⟨?_, hrest⟩⟩
          simpa using hfixed

theorem validateInternalImportAlias_ok {opts : StoreOptions}
    (h : validateInternalImportAlias (ε := ε) opts = .ok ()) :
    opts.internalImportAlias = "" ∨
      validRouteIdentifier opts.internalImportAlias = true ∧
        opts.internalImportAlias ∉ generatedQualifiers := by
  unfold validateInternalImportAlias at h
  split at h
  case isTrue hnone => exact .inl hnone
  case isFalse =>
    split at h
    case isTrue => cases h
    case isFalse =>
      obtain ⟨⟨⟩, hvalid, h⟩ := bind_eq_ok.mp h
      split at h
      case isTrue => cases h
      case isFalse hfree => exact .inr ⟨(validateIdentifier_ok hvalid).1, hfree⟩

/-- What the later steps rely on. -/
structure StoreOptions.Accepted (opts : StoreOptions) : Prop where
  alias_valid : opts.internalImportAlias = "" ∨
    validRouteIdentifier opts.internalImportAlias = true ∧
      opts.internalImportAlias ∉ generatedQualifiers
  exported_path : opts.exportSQLCTypes = true → opts.internalImportPath ≠ ""
  names_nodup : ((publicNames opts).map Prod.snd).Nodup
  names_fresh : ∀ value ∈ (publicNames opts).map Prod.snd,
    GoMap.get? (fixedGeneratedDeclarations (opts.internalImportPath = "")) value = none

theorem validateOptions_ok {opts : StoreOptions}
    (h : validateOptions (ε := ε) opts = .ok ()) : opts.Accepted := by
  obtain ⟨-, -, h⟩ := bind_eq_ok.mp h
  obtain ⟨-, -, h⟩ := bind_eq_ok.mp h
  obtain ⟨-, -, h⟩ := bind_eq_ok.mp h
  obtain ⟨-, -, h⟩ := bind_eq_ok.mp h
  obtain ⟨⟨⟩, halias, h⟩ := bind_eq_ok.mp h
  obtain ⟨⟨⟩, hexport, h⟩ := bind_eq_ok.mp h
  obtain ⟨-, -, h⟩ := bind_eq_ok.mp h
  obtain ⟨⟨⟩, hnames, -⟩ := bind_eq_ok.mp h
  obtain ⟨hnodup, -, hfresh⟩ := checkPublicNames_ok hnames
  refine ⟨validateInternalImportAlias_ok halias, fun hexported hpath => ?_, hnodup, hfresh⟩
  simp [validateExport, hexported, hpath] at hexport

theorem validRouteIdentifier_of_letters {value : String} (hne : value ≠ "")
    (h : ∀ c ∈ value.toList, Unicode.isLetter c = true) : validRouteIdentifier value = true := by
  simp only [validRouteIdentifier, hne, ne_eq, not_false_eq_true, decide_true,
    Bool.true_and, List.all_eq_true]
  intro entry hentry
  simp [h entry.1 (List.fst_mem_of_mem_zipIdx hentry)]

/-- The qualifier of sqlc's package is an identifier. -/
theorem StoreOptions.Accepted.qualifier_valid [Unicode.Lawful] {opts : StoreOptions}
    (h : opts.Accepted) : validRouteIdentifier (internalQualifier opts.toOptions) = true := by
  unfold internalQualifier
  split
  case isTrue halias => exact (h.alias_valid.resolve_left halias).1
  case isFalse =>
    have hletters : ∀ c ∈ "internal".toList, Unicode.isLetter c = true := by
      intro c hc
      have hall : ∀ c ∈ "internal".toList, c.toNat < 128 ∧ c.isAlpha = true :=
        forall_mem_of_all (by decide)
      rw [Unicode.Lawful.isLetter_ascii c (hall c hc).1, (hall c hc).2]
    exact validRouteIdentifier_of_letters (by simp) hletters

end Validate

end PgMesh.Plugin
