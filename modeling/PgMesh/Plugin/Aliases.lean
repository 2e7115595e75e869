import PgMesh.Foundation.Lexemes
import PgMesh.Plugin.Options
import PgMesh.Plugin.StoreMethod

/-!
# Types of sqlc in the public interface

With `export_sqlc_types` the public interface names the types of sqlc's package
without a qualifier.  `collectSQLCTypeAliases` reads the names from the parsed
types, and an alias is declared for each.  `exportedSQLCType` removes the
qualifier from the text of the type.
-/

namespace PgMesh.Plugin

open PgMesh.Foundation

/-- `strings.ReplaceAll`, for an `old` that is not empty. -/
def replaceText (s old new : String) : String :=
  String.ofList (replaceAll old.toList new.toList s.toList)

/-! ## Public types -/

def exportedSQLCType (opts : StoreOptions) (typ : String) : String :=
  if opts.exportSQLCTypes then replaceText typ (internalQualifier opts.toOptions ++ ".") ""
  else typ

def exportedSQLCTypes (opts : StoreOptions) (types : List String) : List String :=
  types.map (exportedSQLCType opts)

def exportedSQLCArguments (opts : StoreOptions) (arguments : List Argument) :
    List Argument :=
  arguments.map fun arg => ⟨arg.name, exportedSQLCType opts arg.typ⟩

structure StoreParamAlias where
  name : String
  target : String

structure StoreQuery extends GeneratedQuery where
  storeParamAlias : Option StoreParamAlias := none

/-- One round of `aliasSQLCParamsForStore`, for a query with a parameter structure. -/
def aliasStruct (opts : StoreOptions) (query : GeneratedQuery) (strct : GoStruct) :
    StoreQuery :=
  let sqlcType := targetName opts.toOptions strct.name
  let aliasName := query.methodName ++ "T"
  let storeParams := query.storeParams.map fun param =>
    { param with typ := replaceText param.typ sqlcType aliasName }
  if storeParams = query.storeParams then { query with }
  else
    { query with
      storeParams
      storeParamAlias := some ⟨aliasName, exportedSQLCType opts sqlcType⟩ }

def aliasParams (opts : StoreOptions) (query : GeneratedQuery) : StoreQuery :=
  match query.arg.structType with
  | none => { query with }
  | some strct =>
      if query.store = "" ∨ query.shardArgs.isSome ∨ query.arg.emit = false then
        { query with }
      else aliasStruct opts query strct

def aliasSQLCParamsForStore (opts : StoreOptions) (queries : List GeneratedQuery) :
    List StoreQuery :=
  queries.map (aliasParams opts)

/-- The types that the public declarations of a query pass to `exportedSQLCType`. -/
def publicTypes (opts : StoreOptions) (query : StoreQuery) : List String :=
  query.storeParams.map Argument.typ ++ query.results ++
    query.route.toList.flatMap (fun route => route.operands.map RouteOperand.typ) ++
    query.shardArgs.toList.flatMap (fun wrapper => wrapper.fields.map GoField.typ) ++
    if query.storeParamAlias.isSome then
      query.arg.structType.toList.map fun strct => targetName opts.toOptions strct.name
    else []

section Build

variable {ε : Type} [Unicode]

def buildStoreQueries (opts : StoreOptions) (g : Generator ε) (queries : List Query) :
    Except (GoError ε) (List StoreQuery) := do
  let out ← buildQueries { g with opts := opts.toOptions } queries
  return aliasSQLCParamsForStore opts out

/-! ## Aliases -/

structure Schema where
  name : String
  enums : List String

structure Catalog where
  defaultSchema : String
  schemas : List Schema

def skippedSchema (name : String) : Bool :=
  name == "pg_catalog" || name == "information_schema"

/-- `ast.IsExported`. -/
def isExported (name : String) : Bool := name.toList.head?.any Unicode.isUpper

def typeLexemes (typ : String) : List Lexeme := scan isIdentifierChar typ.toList

/-- The names that a type selects from a package. -/
def selectedNames (package typ : String) : List String :=
  (selections package.toList (typeLexemes typ)).map String.ofList

/-- The types that `collectSQLCTypeAliases` reads, in this order. -/
def collectedTypes (opts : StoreOptions) (query : GeneratedQuery) : List String :=
  query.params.map Argument.typ ++ query.results ++
    query.route.toList.flatMap (fun route => route.operands.map RouteOperand.typ) ++
    query.shardArgs.toList.flatMap (fun wrapper => wrapper.fields.map GoField.typ) ++
    (if query.arg.emit then [query.arg.defineType opts.toOptions] else []) ++
    query.arg.structType.toList.flatMap (fun strct => strct.fields.map GoField.typ) ++
    [query.ret.defineType opts.toOptions] ++
    query.ret.structType.toList.flatMap (fun strct => strct.fields.map GoField.typ)

section Collect

variable (parseError : String → Option (GoError ε)) (opts : StoreOptions)

/-- The function `addType`; `parseError` is what `parser.ParseExpr` reports. -/
def addType (aliases : GoMap String Unit) (typ : String) :
    Except (GoError ε) (GoMap String Unit) :=
  if typ = "" then .ok aliases
  else
    match parseError typ with
    | some err =>
        .error (.errorf "parse generated Go type %q for sqlc aliases: %w"
          [.text typ, .wrapped err])
    | none =>
        let names := (selectedNames (internalQualifier opts.toOptions) typ).filter isExported
        .ok (names.foldl (fun aliases name => GoMap.set aliases name ()) aliases)

/-- The names of the enumerations, in the order of the catalog. -/
def enumNames (catalog : Catalog) : List String :=
  (catalog.schemas.filter fun schema => !skippedSchema schema.name).flatMap fun schema =>
    schema.enums.map fun name =>
      structName
        (if schema.name ≠ catalog.defaultSchema then schema.name ++ "_" ++ name else name)
        opts.toOptions

def addEnum (aliases : GoMap String Unit) (name : String) : GoMap String Unit :=
  if (GoMap.get? aliases ("Null" ++ name)).isSome then GoMap.set aliases name () else aliases

def collectSQLCTypeAliases (queries : List StoreQuery) (catalog : Catalog) :
    Except (GoError ε) (List String) :=
  if opts.exportSQLCTypes then do
    let types := queries.flatMap fun query => collectedTypes opts query.toGeneratedQuery
    let aliases ← types.foldlM (addType parseError opts) []
    let aliases := (enumNames opts catalog).foldl addEnum aliases
    return (aliases.map Prod.fst).insertionSort (· ≤ ·)
  else .ok []

/-- The declarations `type alias = qualifier.alias`. -/
def writeSQLCTypeAliases (aliases : List String) : List (String × String) :=
  aliases.map fun name => (name, internalQualifier opts.toOptions ++ "." ++ name)

end Collect

/-! ## What the aliases cover -/

section Collected

variable {parseError : String → Option (GoError ε)} {opts : StoreOptions}

/-- The names that a type adds to the aliases. -/
def aliasNames (opts : StoreOptions) (typ : String) : List String :=
  (selectedNames (internalQualifier opts.toOptions) typ).filter isExported

theorem addType_ok {aliases aliases' : GoMap String Unit} {typ : String}
    (h : addType parseError opts aliases typ = .ok aliases') :
    aliases' =
      (aliasNames opts typ).foldl (fun aliases name => GoMap.set aliases name ()) aliases := by
  unfold addType at h
  split at h
  case isTrue hempty =>
    cases h
    subst hempty
    rfl
  case isFalse =>
    split at h
    case h_1 => cases h
    case h_2 =>
      cases h
      rfl

theorem mem_keys_foldlM_addType {types : List String} {aliases aliases' : GoMap String Unit}
    (h : types.foldlM (addType parseError opts) aliases = .ok aliases') (name : String) :
    name ∈ aliases'.map Prod.fst ↔
      name ∈ aliases.map Prod.fst ∨ ∃ typ ∈ types, name ∈ aliasNames opts typ := by
  induction types generalizing aliases with
  | nil =>
      cases h
      simp
  | cons typ types ih =>
      rw [List.foldlM_cons] at h
      obtain ⟨next, hnext, h⟩ := bind_eq_ok.mp h
      rw [ih h, addType_ok hnext, GoMap.mem_keys_foldl_set]
      simp only [List.mem_cons, exists_eq_or_imp]
      exact or_assoc.trans or_left_comm

omit [Unicode] in
theorem mem_keys_foldl_addEnum {names : List String} {aliases : GoMap String Unit}
    {name : String} (h : name ∈ aliases.map Prod.fst) :
    name ∈ (names.foldl addEnum aliases).map Prod.fst := by
  induction names generalizing aliases with
  | nil => exact h
  | cons enum names ih =>
      refine ih ?_
      unfold addEnum
      split
      · exact (GoMap.mem_keys_set _ _ _ _).mpr (.inr h)
      · exact h

theorem nodup_keys_foldlM_addType {types : List String}
    {aliases aliases' : GoMap String Unit} (hnodup : (aliases.map Prod.fst).Nodup)
    (h : types.foldlM (addType parseError opts) aliases = .ok aliases') :
    (aliases'.map Prod.fst).Nodup := by
  induction types generalizing aliases with
  | nil =>
      cases h
      exact hnodup
  | cons typ types ih =>
      rw [List.foldlM_cons] at h
      obtain ⟨next, hnext, h⟩ := bind_eq_ok.mp h
      refine ih ?_ h
      rw [addType_ok hnext]
      exact GoMap.nodup_keys_foldl_set hnodup _ _

omit [Unicode] in
theorem nodup_keys_foldl_addEnum {aliases : GoMap String Unit}
    (hnodup : (aliases.map Prod.fst).Nodup) (names : List String) :
    ((names.foldl addEnum aliases).map Prod.fst).Nodup := by
  induction names generalizing aliases with
  | nil => exact hnodup
  | cons enum names ih =>
      refine ih ?_
      unfold addEnum
      split
      · exact GoMap.nodup_keys_set hnodup _ _
      · exact hnodup

theorem nodup_aliases {queries : List StoreQuery} {catalog : Catalog} {aliases : List String}
    (h : collectSQLCTypeAliases parseError opts queries catalog = .ok aliases) :
    aliases.Nodup := by
  unfold collectSQLCTypeAliases at h
  split at h
  case isTrue =>
    obtain ⟨collected, hcollected, h⟩ := bind_eq_ok.mp h
    cases h
    have hempty : (([] : GoMap String Unit).map Prod.fst).Nodup := .nil
    have hnodup := nodup_keys_foldlM_addType hempty hcollected
    exact (List.perm_insertionSort _ _).nodup_iff.mpr (nodup_keys_foldl_addEnum hnodup _)
  case isFalse =>
    cases h
    exact .nil

/-- Every exported name that one of the read types selects is an alias. -/
theorem mem_aliases {queries : List StoreQuery} {catalog : Catalog} {aliases : List String}
    (hexport : opts.exportSQLCTypes = true)
    (h : collectSQLCTypeAliases parseError opts queries catalog = .ok aliases)
    {query : StoreQuery} (hquery : query ∈ queries) {typ : String}
    (htyp : typ ∈ collectedTypes opts query.toGeneratedQuery) {name : String}
    (hname : name ∈ aliasNames opts typ) : name ∈ aliases := by
  simp only [collectSQLCTypeAliases, hexport, if_true] at h
  obtain ⟨collected, hcollected, h⟩ := bind_eq_ok.mp h
  cases h
  rw [List.mem_insertionSort]
  refine mem_keys_foldl_addEnum ((mem_keys_foldlM_addType hcollected name).mpr (.inr ?_))
  exact ⟨typ, List.mem_flatMap.mpr ⟨query, hquery, htyp⟩, hname⟩

end Collected

/-! ## The public types of a query -/

/-- The number of dots in a text. -/
def dots (s : String) : Nat := s.toList.countP (· == '.')

omit [Unicode] in
@[simp] theorem dots_append (s t : String) : dots (s ++ t) = dots s + dots t := by
  simp [dots]

omit [Unicode] in
@[simp] theorem dots_slice : dots "[]" = 0 := by decide

omit [Unicode] in
@[simp] theorem dots_pointer : dots "*" = 0 := by decide

omit [Unicode] in
@[simp] theorem dots_wrapper : dots "T" = 0 := by decide

omit [Unicode] in
theorem dots_eq_zero {s : String} : dots s = 0 ↔ '.' ∉ s.toList := by
  simpa [dots, List.count] using List.count_eq_zero (a := '.') (l := s.toList)

omit [Unicode] in
/-- A text with one dot has none when something with a dot was replaced in it. -/
theorem dots_replaceText {s old new : String} (hs : dots s ≤ 1) (hold : dots old = 1)
    (hnew : dots new = 0) (hchanged : replaceText s old new ≠ s) :
    dots (replaceText s old new) = 0 := by
  have hne : old.toList ≠ [] := by
    intro hnil
    simp [dots, hnil] at hold
  have hfound : occurrences old.toList s.toList ≠ 0 := by
    intro hzero
    rw [occurrences_eq_zero_iff hne] at hzero
    apply hchanged
    rw [replaceText, replaceAll_of_absent hne hzero, String.ofList_toList]
  have hcount := countP_replaceAll hne (· == '.') new.toList s.toList
  simp only [dots, replaceText, String.toList_ofList] at hs hold hnew ⊢
  rw [hold, hnew] at hcount
  omega

theorem buildQueryArg_struct {g : Generator ε} {query : Query} {arg : QueryValue}
    {strct : GoStruct} (h : buildQueryArg g query = .ok arg)
    (hstrct : arg.structType = some strct) :
    arg.typ = "" ∧ strct.name = query.name ++ "Params" := by
  have hstruct : buildQueryArg.structArg g query g.opts.queryParameterLimit = .ok arg →
      arg.typ = "" ∧ strct.name = query.name ++ "Params" := by
    intro h
    obtain ⟨strct', hcolumns, h⟩ := bind_eq_ok.mp h
    obtain ⟨-, -, hname⟩ := bind_eq_ok.mp hcolumns
    cases h
    cases hname
    cases hstrct
    exact ⟨rfl, rfl⟩
  unfold buildQueryArg at h
  split at h
  · cases h
    cases hstrct
  · dsimp only at h
    split at h
    · cases h
      cases hstrct
    · exact hstruct h
  · exact hstruct h

/-- The parameters of a query before they are wrapped, with their types. -/
theorem buildQuery_params {g : Generator ε} {query : Query} {built : GeneratedQuery}
    (h : buildQuery g query = .ok built) :
    built.methodName = query.name ∧ built.shardArgs = none ∧
      built.storeParams = built.params ∧ buildQueryArg g query = .ok built.arg ∧
      ∃ params, built.params = ⟨"ctx", "context.Context"⟩ :: params ∧
        (built.arg.emit = true → ∀ param ∈ params,
          param.typ = built.arg.defineType g.opts ∨
            param.typ = "[]" ++ built.arg.defineType g.opts) := by
  obtain ⟨arg, harg, h⟩ := bind_eq_ok.mp h
  obtain ⟨ret, -, h⟩ := bind_eq_ok.mp h
  obtain ⟨results, -, h⟩ := bind_eq_ok.mp h
  obtain ⟨⟨kind, ann, store⟩, -, h⟩ := bind_eq_ok.mp h
  have hparams : arg.emit = true → ∀ param ∈
      (if query.cmd == cmdCopyFrom || hasPrefix query.cmd ":batch" then
        if arg.isEmpty then [] else [arg.slicePair g.opts]
      else arg.pairs g.opts),
      param.typ = arg.defineType g.opts ∨ param.typ = "[]" ++ arg.defineType g.opts := by
    intro hemit param hparam
    split at hparam
    · split at hparam
      · cases hparam
      · rw [List.mem_singleton] at hparam
        exact .inr (hparam ▸ rfl)
    · unfold QueryValue.pairs at hparam
      split at hparam
      · cases hparam
      · rw [hemit] at hparam
        rw [List.mem_singleton] at hparam
        exact .inl (hparam ▸ rfl)
  cases ann with
  | none =>
      cases h
      exact ⟨rfl, rfl, rfl, harg, _, rfl, hparams⟩
  | some ann =>
      obtain ⟨⟨route, mode, spec⟩, -, h⟩ := bind_eq_ok.mp h
      cases h
      exact ⟨rfl, rfl, rfl, harg, _, rfl, hparams⟩

/-- A wrapped query keeps its context and takes one parameter of its own type. -/
theorem wrapQuery_params {query out : GeneratedQuery} {opts : Options}
    (h : wrapQuery (ε := ε) query opts = .ok out) (hroute : out.route ≠ none)
    (hname : dots query.methodName = 0) :
    out.params = query.params ∧ out.shardArgs.isSome = true ∧
      ∃ typ, out.storeParams = [contextParam query, ⟨"arg", typ⟩] ∧ dots typ = 0 := by
  obtain ⟨route, -, ⟨spec, -, -, hwrap⟩ | ⟨-, hwrap⟩⟩ := wrapQuery_ok h hroute
  · obtain ⟨⟨expression, w⟩, -, hwrap⟩ := bind_eq_ok.mp hwrap
    cases hwrap
    refine ⟨rfl, rfl, _, rfl, ?_⟩
    split <;> simp [hname]
  · obtain ⟨⟨wrapper, callArgs⟩, -, hwrap⟩ := bind_eq_ok.mp hwrap
    cases hwrap
    refine ⟨rfl, rfl, _, rfl, ?_⟩
    unfold wrapperType
    split <;> split <;> simp [hname]

omit [Unicode] in
theorem mem_publicTypes {opts : StoreOptions} {query : StoreQuery} {typ : String}
    (h : typ ∈ publicTypes opts query) :
    typ ∈ query.storeParams.map Argument.typ ∨
      typ ∈ collectedTypes opts query.toGeneratedQuery ∨
      query.storeParamAlias.isSome = true ∧ ∃ strct, query.arg.structType = some strct ∧
        typ = targetName opts.toOptions strct.name := by
  unfold publicTypes at h
  unfold collectedTypes
  simp only [List.mem_append] at h ⊢
  obtain ((((h | h) | h) | h) | h) := h
  · exact .inl h
  · exact .inr (.inl (by simp only [h, true_or, or_true]))
  · exact .inr (.inl (by simp only [h, true_or, or_true]))
  · exact .inr (.inl (by simp only [h, true_or, or_true]))
  · split at h
    case isTrue halias =>
      obtain ⟨strct, hstrct, rfl⟩ := List.mem_map.mp h
      exact .inr (.inr ⟨halias, strct, Option.mem_toList.mp hstrct, rfl⟩)
    case isFalse => cases h

omit [Unicode] in
theorem aliasParams_cases (opts : StoreOptions) (query : GeneratedQuery) :
    aliasParams opts query = { query with } ∨
      ∃ strct, query.arg.structType = some strct ∧ query.shardArgs = none ∧
        query.arg.emit = true ∧
        aliasParams opts query =
          { query with
            storeParams := query.storeParams.map fun param =>
              { param with
                typ := replaceText param.typ (targetName opts.toOptions strct.name)
                  (query.methodName ++ "T") }
            storeParamAlias := some ⟨query.methodName ++ "T",
              exportedSQLCType opts (targetName opts.toOptions strct.name)⟩ } := by
  unfold aliasParams
  cases hstrct : query.arg.structType with
  | none => exact .inl rfl
  | some strct =>
      dsimp only
      split
      case isTrue => exact .inl rfl
      case isFalse hother =>
        simp only [not_or, Bool.not_eq_true, Option.isSome_eq_false_iff,
          Option.isNone_iff_eq_none, Bool.not_eq_false] at hother
        unfold aliasStruct
        dsimp only
        split
        case isTrue => exact .inl rfl
        case isFalse => exact .inr ⟨strct, rfl, hother.2.1, hother.2.2, rfl⟩

omit [Unicode] in
/-- Aliasing changes only the parameters of the store method. -/
theorem aliasParams_kept (opts : StoreOptions) (query : GeneratedQuery) :
    collectedTypes opts (aliasParams opts query).toGeneratedQuery = collectedTypes opts query ∧
      (aliasParams opts query).arg = query.arg := by
  obtain hsame | ⟨strct, -, -, -, hsame⟩ := aliasParams_cases opts query
  · rw [hsame]
    exact ⟨rfl, rfl⟩
  · rw [hsame]
    exact ⟨rfl, rfl⟩

section Public

variable {opts : StoreOptions} {g : Generator ε} {queries : List Query}

/-- The types of the parameters of a store method before aliasing. -/
theorem wrapped_params {query : Query} {built out : GeneratedQuery}
    (hbuild : buildQuery g query = .ok built)
    (hwrap : wrapQuery (ε := ε) built g.opts = .ok out) (hname : dots query.name = 0) :
    (out = built ∧ out.storeParams = out.params) ∨
      (out.shardArgs.isSome = true ∧ ∀ param ∈ out.storeParams,
        param ∈ out.params ∨ dots param.typ = 0) := by
  obtain ⟨hmethod, -, hstore, -, params, hparams, -⟩ := buildQuery_params hbuild
  by_cases hroute : out.route = none
  · obtain rfl := wrapQuery_unrouted hwrap hroute
    exact .inl ⟨rfl, hstore⟩
  · rw [← hmethod] at hname
    obtain ⟨hsame, hshard, typ, hout, htyp⟩ := wrapQuery_params hwrap hroute hname
    refine .inr ⟨hshard, ?_⟩
    rw [hout, hsame, contextParam, hparams]
    simp [htyp]

omit [Unicode] in
theorem dots_targetName (hpath : opts.internalImportPath ≠ "")
    (hqualifier : dots (internalQualifier opts.toOptions) = 0) {name : String}
    (hname : dots name = 0) : dots (targetName opts.toOptions name) = 1 := by
  have hdot : dots "." = 1 := by decide
  simp [targetName, hpath, hqualifier, hdot, hname]

/-- A parameter that is passed as sqlc's structure, and the type of the structure. -/
theorem defineType_struct {query : Query} {built : GeneratedQuery} {strct : GoStruct}
    (hbuild : buildQuery g query = .ok built) (hstrct : built.arg.structType = some strct)
    (hname : dots query.name = 0) :
    dots strct.name = 0 ∧ (built.arg.defineType g.opts = targetName g.opts strct.name ∨
      built.arg.defineType g.opts = "*" ++ targetName g.opts strct.name) := by
  obtain ⟨-, -, -, harg, -⟩ := buildQuery_params hbuild
  obtain ⟨hempty, hstruct⟩ := buildQueryArg_struct harg hstrct
  have hparams : dots "Params" = 0 := by decide
  refine ⟨by rw [hstruct, dots_append, hname, hparams], ?_⟩
  simp only [QueryValue.defineType, hstrct, hempty, if_true, Option.isSome_some,
    Bool.and_true]
  split
  · exact .inr rfl
  · exact .inl rfl

/-- What is left of a parameter that the alias was put into. -/
theorem dots_aliased {query : Query} {built : GeneratedQuery} {strct : GoStruct}
    (hbuild : buildQuery g query = .ok built) (hstrct : built.arg.structType = some strct)
    (hemit : built.arg.emit = true) (hname : dots query.name = 0)
    (htarget : dots (targetName g.opts strct.name) = 1) {param : Argument}
    (hparam : param ∈ built.params)
    (hchanged : replaceText param.typ (targetName g.opts strct.name)
      (built.methodName ++ "T") ≠ param.typ) :
    dots (replaceText param.typ (targetName g.opts strct.name)
      (built.methodName ++ "T")) = 0 := by
  obtain ⟨hmethod, -, -, -, params, hctx, htypes⟩ := buildQuery_params hbuild
  have hone : dots (built.arg.defineType g.opts) = 1 := by
    obtain ⟨-, hdefine | hdefine⟩ := defineType_struct hbuild hstrct hname
    · rw [hdefine, htarget]
    · rw [hdefine, dots_append, dots_pointer, htarget]
  refine dots_replaceText ?_ htarget ?_ hchanged
  · rw [hctx] at hparam
    rcases List.mem_cons.mp hparam with rfl | hparam
    · decide
    · obtain htyp | htyp := htypes hemit param hparam
      · rw [htyp]
        exact hone.le
      · rw [htyp, dots_append, dots_slice, Nat.zero_add]
        exact hone.le
  · rw [dots_append, dots_wrapper, hmethod, hname]

/--
A public type is one of those that the aliases are collected from, or it has no
selector, or it is the structure that the alias `QueryNameT` stands for.
-/
theorem publicTypes_cases {outs : List StoreQuery}
    (hpath : opts.internalImportPath ≠ "")
    (hqualifier : dots (internalQualifier opts.toOptions) = 0)
    (hnames : ∀ query ∈ queries, dots query.name = 0)
    (h : buildStoreQueries opts g queries = .ok outs) {out : StoreQuery}
    (hout : out ∈ outs) {typ : String} (htyp : typ ∈ publicTypes opts out) :
    typ ∈ collectedTypes opts out.toGeneratedQuery ∨ dots typ = 0 ∨
      out.arg.emit = true ∧ (out.arg.defineType opts.toOptions = typ ∨
        out.arg.defineType opts.toOptions = "*" ++ typ) := by
  obtain ⟨wrapped, hwrapped, h⟩ := bind_eq_ok.mp h
  cases h
  obtain ⟨query', hmem, rfl⟩ := List.mem_map.mp hout
  obtain ⟨query, hquery, built, hbuild, hwrap⟩ := exists_of_mem_buildQueries hwrapped hmem
  have hparams := wrapped_params hbuild hwrap (hnames query hquery)
  have hcollected : ∀ param ∈ query'.params, param.typ ∈ collectedTypes opts query' := by
    intro param hparam
    have hmap : param.typ ∈ query'.params.map Argument.typ :=
      List.mem_map.mpr ⟨param, hparam, rfl⟩
    unfold collectedTypes
    simp only [List.mem_append, hmap, true_or]
  rw [(aliasParams_kept opts query').1, (aliasParams_kept opts query').2]
  obtain hstore | hother | ⟨halias, htarget⟩ := mem_publicTypes htyp
  · obtain ⟨param, hparam, rfl⟩ := List.mem_map.mp hstore
    obtain hsame | ⟨strct, hstrct, hshard, hemit, hsame⟩ := aliasParams_cases opts query'
    · rw [hsame] at hparam
      obtain ⟨-, heq⟩ | ⟨-, hall⟩ := hparams
      · exact .inl (hcollected param (heq ▸ hparam))
      · exact (hall param hparam).imp (hcollected param) .inl
    · obtain ⟨rfl, heq⟩ | ⟨hsome, -⟩ := hparams
      case inr => simp [hshard] at hsome
      rw [hsame] at hparam
      obtain ⟨param', hparam', rfl⟩ := List.mem_map.mp hparam
      rw [heq] at hparam'
      have hdots := dots_targetName hpath hqualifier
        (defineType_struct hbuild hstrct (hnames query hquery)).1
      by_cases hchanged : replaceText param'.typ (targetName opts.toOptions strct.name)
          (query'.methodName ++ "T") = param'.typ
      · refine .inl ?_
        rw [hchanged]
        exact hcollected param' hparam'
      · exact .inr (.inl (dots_aliased hbuild hstrct hemit (hnames query hquery) hdots
          hparam' hchanged))
  · rw [(aliasParams_kept opts query').1] at hother
    exact .inl hother
  · obtain ⟨strct', hstrct', rfl⟩ := htarget
    rw [(aliasParams_kept opts query').2] at hstrct'
    obtain hsame | ⟨strct, hstrct, hshard, hemit, -⟩ := aliasParams_cases opts query'
    · rw [hsame] at halias
      cases halias
    · obtain ⟨rfl, -⟩ | ⟨hsome, -⟩ := hparams
      case inr => simp [hshard] at hsome
      exact .inr (.inr ⟨hemit, (defineType_struct hbuild hstrct' (hnames query hquery)).2⟩)

end Public

/-! ## Exact re-exports -/

/--
The public text of a type is the type without the qualifier of sqlc's package, and
every name that lost its qualifier is declared as an alias of sqlc's type.
-/
structure ReExported (opts : StoreOptions) (aliases : List String) (typ : String) : Prop where
  rewritten : (exportedSQLCType opts typ).toList =
    textOf (unqualify (internalQualifier opts.toOptions).toList (typeLexemes typ))
  aliased : ∀ name ∈ selectedNames (internalQualifier opts.toOptions) typ,
    (name, internalQualifier opts.toOptions ++ "." ++ name) ∈ writeSQLCTypeAliases opts aliases

/--
The text of the type has the qualifier in front of a dot only where it is the
whole package of a selector, and there the dot follows it directly.
-/
def StandsAlone (qualifier typ : String) : Prop :=
  ∀ l ∈ typeLexemes typ, l.Mentions qualifier.toList ↔ l.qualifies qualifier.toList = true

section Exact

variable [Unicode.Lawful]

theorem isIdentifierChar_delimiters : ∀ c ∈ delimiters, isIdentifierChar c = false := by
  have hother : ∀ c ∈ delimiters,
      c.toNat < 128 ∧ (c.isAlpha || c.isDigit || c == '_') = false :=
    forall_mem_of_all (by decide)
  intro c hc
  rw [isIdentifierChar_ascii (hother c hc).1, (hother c hc).2]

theorem dots_of_valid {value : String} (h : validRouteIdentifier value = true) :
    dots value = 0 :=
  dots_eq_zero.mpr (not_mem_of_isWord isIdentifierChar_delimiters
    fun _ hc => isIdentifierChar_of_valid h hc)

theorem rewritten_iff {opts : StoreOptions} (hexport : opts.exportSQLCTypes = true)
    (hvalid : validRouteIdentifier (internalQualifier opts.toOptions) = true) (typ : String) :
    (exportedSQLCType opts typ).toList =
        textOf (unqualify (internalQualifier opts.toOptions).toList (typeLexemes typ)) ↔
      StandsAlone (internalQualifier opts.toOptions) typ := by
  have hscanned := scanned_scan isIdentifierChar_delimiters typ.toList
  have hexact := hscanned.replaceAll_eq_iff isIdentifierChar_delimiters
    (fun _ hc => isIdentifierChar_of_valid hvalid hc) (ne_nil_of_valid hvalid)
  rw [textOf_scan] at hexact
  simpa [exportedSQLCType, hexport, replaceText, typeLexemes, StandsAlone] using hexact

theorem selectedNames_pointer (package typ : String) :
    selectedNames package ("*" ++ typ) = selectedNames package typ := by
  have hstar : isIdentifierChar '*' = false := by
    rw [isIdentifierChar_ascii (by decide)]
    rfl
  have hscan : typeLexemes ("*" ++ typ) = .mark '*' :: typeLexemes typ := by
    have hlist : ("*" ++ typ).toList = '*' :: typ.toList := by simp
    rw [typeLexemes, hlist]
    exact scan_cons_mark (by simp [passageAt]) hstar
  rw [selectedNames, hscan]
  rfl

omit [Unicode.Lawful] in
theorem selectedNames_of_dots {typ : String} (h : dots typ = 0) (package : String) :
    selectedNames package typ = [] := by
  have hdot : '.' ∉ textOf (typeLexemes typ) := by
    rw [typeLexemes, textOf_scan]
    exact dots_eq_zero.mp h
  rw [selectedNames, selections_eq_nil hdot, List.map_nil]

/--
For accepted options that export the types of sqlc, a public type is re-exported
exactly when sqlc's qualifier stands alone in it.
-/
theorem type_exports_are_exact_iff {parseError : String → Option (GoError ε)}
    {opts : StoreOptions} (hopts : validateOptions (ε := ε) opts = .ok ())
    (hexport : opts.exportSQLCTypes = true) {g : Generator ε} {queries : List Query}
    (hnames : ∀ query ∈ queries, validRouteIdentifier query.name = true)
    {outs : List StoreQuery} (houts : buildStoreQueries opts g queries = .ok outs)
    {catalog : Catalog} {aliases : List String}
    (haliases : collectSQLCTypeAliases parseError opts outs catalog = .ok aliases)
    {out : StoreQuery} (hout : out ∈ outs) {typ : String} (htyp : typ ∈ publicTypes opts out)
    (hexported : ∀ name ∈ selectedNames (internalQualifier opts.toOptions) typ,
      isExported name = true) :
    ReExported opts aliases typ ↔ StandsAlone (internalQualifier opts.toOptions) typ := by
  have haccepted := validateOptions_ok hopts
  have hvalid := haccepted.qualifier_valid
  rw [← rewritten_iff hexport hvalid typ]
  refine ⟨ReExported.rewritten, fun hrewritten => ⟨hrewritten, fun name hname => ?_⟩⟩
  suffices hmem : name ∈ aliases from List.mem_map.mpr ⟨name, hmem, rfl⟩
  have hcollect : ∀ typ' ∈ collectedTypes opts out.toGeneratedQuery,
      selectedNames (internalQualifier opts.toOptions) typ' =
        selectedNames (internalQualifier opts.toOptions) typ → name ∈ aliases := by
    intro typ' htyp' hsame
    refine mem_aliases hexport haliases hout htyp' (List.mem_filter.mpr ⟨?_, hexported name hname⟩)
    rwa [hsame]
  have hdefine : out.arg.emit = true →
      out.arg.defineType opts.toOptions ∈ collectedTypes opts out.toGeneratedQuery := by
    intro hemit
    unfold collectedTypes
    simp [hemit]
  obtain hcollected | hnone | ⟨hemit, htarget | htarget⟩ :=
    publicTypes_cases (haccepted.exported_path hexport) (dots_of_valid hvalid)
      (fun query hquery => dots_of_valid (hnames query hquery)) houts hout htyp
  · exact hcollect typ hcollected rfl
  · rw [selectedNames_of_dots hnone] at hname
    cases hname
  · exact hcollect _ (hdefine hemit) (by rw [htarget])
  · exact hcollect _ (hdefine hemit) (by rw [htarget, selectedNames_pointer])

end Exact

end Build

/-! ## A package whose name ends like the qualifier -/

local instance moodsUnicode : Unicode := Unicode.ascii

/-- The types of the package `example.com/app/db` are exported. -/
def moodsOptions : StoreOptions where
  queryParameterLimit := 1
  rename := []
  emitParamsStructPointers := false
  emitResultStructPointers := false
  internalImportPath := "example.com/app/db"
  internalImportAlias := "db"
  outputFileName := "store_querier.go"
  packageName := "store"
  exportSQLCTypes := true
  constructorName := "NewStore"
  storeInterfaceName := "Store"
  runtimeImportPath := "github.com/sundayfun/pgmesh"
  resolverInterfaceName := "ShardResolver"
  shardedConstructor := "Sharded"

/-- A generator for which every column has the given type. -/
def moodsGenerator (typ : String) : Generator Unit :=
  { tenantGenerator with
    goType := fun _ => typ
    classifyQuery := fun _ => .ok (.read, none, "Moods") }

/-- `SELECT mood FROM people LIMIT 1` -/
def getMood : Query where
  name := "GetMood"
  cmd := ":one"
  columns := [{ name := "mood" }]

instance (qualifier typ : String) : Decidable (StandsAlone qualifier typ) := by
  unfold StandsAlone
  infer_instance

theorem type_exports_are_exact_iff_mood :
    ∃ out, buildStoreQueries moodsOptions (moodsGenerator "db.Mood") [getMood] = .ok [out] ∧
      "db.Mood" ∈ publicTypes moodsOptions out ∧
      collectSQLCTypeAliases (fun _ => none) moodsOptions [out] ⟨"public", []⟩ =
        .ok (ε := GoError Unit) ["Mood"] ∧
      ReExported moodsOptions ["Mood"] "db.Mood" := by
  have := Unicode.lawful_ascii
  obtain ⟨out, hout, htyp, haliases⟩ : ∃ out,
      buildStoreQueries moodsOptions (moodsGenerator "db.Mood") [getMood] = .ok [out] ∧
        "db.Mood" ∈ publicTypes moodsOptions out ∧
        collectSQLCTypeAliases (fun _ => none) moodsOptions [out] ⟨"public", []⟩ =
          .ok (ε := GoError Unit) ["Mood"] :=
    ⟨_, rfl, by decide, rfl⟩
  refine ⟨out, hout, htyp, haliases, ?_⟩
  exact (type_exports_are_exact_iff rfl rfl (by decide) hout haliases
    (List.mem_singleton.mpr rfl) htyp (by decide)).mpr (by decide)

/-- `example.com/mydb.Mood` is another package, but its name loses the last two letters. -/
theorem mydb_is_cut :
    ∃ out aliases, validateOptions (ε := Unit) moodsOptions = .ok () ∧
      buildStoreQueries moodsOptions (moodsGenerator "mydb.Mood") [getMood] = .ok [out] ∧
      "mydb.Mood" ∈ publicTypes moodsOptions out ∧
      collectSQLCTypeAliases (fun _ => none) moodsOptions [out] ⟨"public", []⟩ =
        .ok (ε := GoError Unit) aliases ∧
      (∀ name ∈ selectedNames "db" "mydb.Mood", isExported name = true) ∧
      exportedSQLCType moodsOptions "mydb.Mood" = "myMood" ∧
      ¬ ReExported moodsOptions aliases "mydb.Mood" := by
  refine ⟨_, _, rfl, rfl, by decide, rfl, by decide, by decide, ?_⟩
  intro h
  exact absurd h.rewritten (by decide)

end PgMesh.Plugin
