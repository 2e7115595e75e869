import PgMesh.Foundation.ListUpdate
import PgMesh.Plugin.Lookup

/-!
# Shard routes

A route annotation names the operands of the shard key.  An operand is a SQL
parameter of the query or else a field of a table model; in the second case it
is external, that is, used for routing only.
-/

namespace PgMesh.Plugin

open PgMesh.Foundation

structure RouteOperand where
  name : String
  typ : String
  expression : String
  dbName : String
  fieldName : String
  external : Bool
  deriving DecidableEq, Repr

structure ShardRoute where
  name : String
  methodName : String
  queryName : String
  operands : List RouteOperand

def routeOperandByDBName (route : ShardRoute) (dbName : String) :
    Option RouteOperand :=
  route.operands.find? (·.dbName == dbName)

section Build

variable {ε : Type} [Unicode]

/-- The operand that reads the field of a parameter structure. -/
def fieldOperand (arg : QueryValue) (dbName : String) (field : GoField) :
    RouteOperand :=
  { name := escape (lowerTitle field.name)
    typ := field.typ
    expression :=
      if arg.emit then escape arg.name ++ "." ++ field.name
      else escape (lowerTitle field.name)
    dbName
    fieldName := field.name
    external := false }

def scalarOperand (arg : QueryValue) (dbName : String) (opts : Options) :
    RouteOperand :=
  let fieldName := structName dbName opts
  { name := escape (lowerTitle fieldName)
    typ := arg.typ
    expression := escape arg.name
    dbName
    fieldName
    external := false }

def routeOperandForArg (arg : QueryValue) (dbName : String) (opts : Options) :
    Option RouteOperand :=
  match arg.structType with
  | some strct =>
      (strct.fields.find? (·.dbName == dbName)).map (fieldOperand arg dbName)
  | none => if arg.dbName ≠ dbName then none else some (scalarOperand arg dbName opts)

/-! ## Operands from table models -/

def modelsForTables (g : Generator ε) (tables : List Identifier) : List GoStruct :=
  g.structs.filter fun model =>
    tables.any fun table => sameTableName (some table) model.table g.defaultSchema

/-- The models of each tier, in the order in which the tiers are searched. -/
def relatedQueryModelGroups (g : Generator ε) (query : Query) :
    List (List GoStruct) :=
  let inserted :=
    match query.insertIntoTable with
    | none => []
    | some table => [modelsForTables g [table]]
  let groups :=
    [query.columns.filterMap Column.table, g.queryRelationIdentifiers query.text,
      query.params.filterMap (·.column.table)].map (modelsForTables g)
  inserted ++ groups.filter (!·.isEmpty)

/-- The fields of a tier with the given column name, each with its model. -/
def matchingFields (models : List GoStruct) (dbName : String) :
    List (GoField × String) :=
  models.flatMap fun model =>
    (model.fields.filter (·.dbName == dbName)).map fun field => (field, model.name)

/-- The loop over the matching fields of one tier. -/
def matchFields (queryName dbName : String) : List (GoField × String) →
    Option (GoField × String) → Except (GoError ε) (Option GoField)
  | [], matched => .ok (matched.map Prod.fst)
  | (field, model) :: rest, none => matchFields queryName dbName rest (some (field, model))
  | (field, model) :: rest, some (matched, matchedModel) =>
      if matched.name ≠ field.name ∨ matched.typ ≠ field.typ then
        .error (.errorf ("query %s shard operand %q matches incompatible fields " ++
          "on generated models %s and %s")
          [.text queryName, .text dbName, .text matchedModel, .text model])
      else matchFields queryName dbName rest (some (field, model))

def fieldFromGroups (query : Query) (dbName : String) :
    List (List GoStruct) → Except (GoError ε) GoField
  | [] =>
      .error (.errorf ("query %s shard operand %q does not match a SQL parameter " ++
        "or a field on its generated table model") [.text query.name, .text dbName])
  | models :: groups => do
      match ← matchFields query.name dbName (matchingFields models dbName) none with
      | some field => return field
      | none => fieldFromGroups query dbName groups

def routeOperandFieldFromModels (g : Generator ε) (query : Query) (dbName : String) :
    Except (GoError ε) GoField :=
  fieldFromGroups query dbName (relatedQueryModelGroups g query ++ [g.structs])

/-! ## Resolution -/

/-- The operand for a list lookup that is named by the key of the result. -/
def lookupOperand (arg : QueryValue) (dbName : String) (opts : Options)
    (groupedMany : Option GroupedManySpec) : Option RouteOperand :=
  match groupedMany with
  | none => none
  | some spec =>
      if dbName = spec.lookupDBName then
        (routeOperandForArg arg spec.parameterDBName opts).map fun operand =>
          { operand with
            name := escape (lowerTitle spec.lookupField)
            fieldName := spec.lookupField }
      else none

def modelOperand (dbName : String) (field : GoField) : RouteOperand :=
  { name := escape (lowerTitle field.name)
    typ := field.typ
    expression := ""
    dbName
    fieldName := field.name
    external := true }

def resolveOperand (g : Generator ε) (query : Query) (arg : QueryValue)
    (groupedMany : Option GroupedManySpec) (dbName : String) :
    Except (GoError ε) RouteOperand :=
  match (routeOperandForArg arg dbName g.opts).or
      (lookupOperand arg dbName g.opts groupedMany) with
  | some operand => .ok operand
  | none => do
      let field ← routeOperandFieldFromModels g query dbName
      return modelOperand dbName field

def resolveOperands (g : Generator ε) (query : Query) (arg : QueryValue)
    (groupedMany : Option GroupedManySpec) : List String → GoMap String Unit →
    List RouteOperand → Except (GoError ε) (List RouteOperand)
  | [], _, operands => .ok operands
  | dbName :: dbNames, seenNames, operands => do
      let operand ← resolveOperand g query arg groupedMany dbName
      if (GoMap.get? seenNames operand.name).isSome then
        .error (.errorf "query %s shard operands generate duplicate Go parameter %q"
          [.text query.name, .text operand.name])
      resolveOperands g query arg groupedMany dbNames
        (GoMap.set seenNames operand.name ()) (operands ++ [operand])

def resolveShardRoute (g : Generator ε) (query : Query) (arg : QueryValue)
    (ann : RouteAnnotation) (groupedMany : Option GroupedManySpec) :
    Except (GoError ε) ShardRoute := do
  let methodName := routeMethodName ann.name g.opts
  if methodName = "" then
    .error (.errorf "query %s shard route %q does not produce a Go method name"
      [.text query.name, .text ann.name])
  if !validRouteIdentifier methodName || !methodName.toList.head?.any Unicode.isUpper then
    .error (.errorf ("query %s shard route %q generates non-exported or invalid " ++
      "resolver method %q")
      [.text query.name, .text ann.name, .text methodName])
  let operands ← resolveOperands g query arg groupedMany ann.operands [] []
  return ⟨ann.name, methodName, query.name, operands⟩

/-! Every operand has the Go name of its field, so different operands have
different fields. -/

section Operands

variable {g : Generator ε} {query : Query} {arg : QueryValue}
  {groupedMany : Option GroupedManySpec} {dbName : String} {operand : RouteOperand}

theorem routeOperandForArg_name {opts : Options}
    (h : routeOperandForArg arg dbName opts = some operand) :
    operand.name = escape (lowerTitle operand.fieldName) := by
  unfold routeOperandForArg at h
  split at h
  · obtain ⟨field, -, rfl⟩ := Option.map_eq_some_iff.mp h
    rfl
  · split at h
    · cases h
    · cases h
      rfl

theorem routeOperandForArg_some {opts : Options}
    (h : routeOperandForArg arg dbName opts = some operand) :
    operand.dbName = dbName ∧ operand.external = false := by
  unfold routeOperandForArg at h
  split at h
  · obtain ⟨field, -, rfl⟩ := Option.map_eq_some_iff.mp h
    exact ⟨rfl, rfl⟩
  · split at h
    · cases h
    · cases h
      exact ⟨rfl, rfl⟩

theorem resolveOperand_name
    (h : resolveOperand g query arg groupedMany dbName = .ok operand) :
    operand.name = escape (lowerTitle operand.fieldName) := by
  unfold resolveOperand at h
  split at h
  · rename_i found hfound
    cases h
    rcases Option.or_eq_some_iff.mp hfound with hfound | ⟨-, hfound⟩
    · exact routeOperandForArg_name hfound
    · unfold lookupOperand at hfound
      split at hfound
      · cases hfound
      · split at hfound
        · obtain ⟨-, -, rfl⟩ := Option.map_eq_some_iff.mp hfound
          rfl
        · cases hfound
  · obtain ⟨field, -, hfield⟩ := bind_eq_ok.mp h
    cases hfield
    rfl

/-- Without a list lookup an operand is a parameter or a field of a model. -/
theorem resolveOperand_cases
    (h : resolveOperand g query arg none dbName = .ok operand) :
    routeOperandForArg arg dbName g.opts = some operand ∨
      (routeOperandForArg arg dbName g.opts = none ∧
        ∃ field, operand = modelOperand dbName field) := by
  unfold resolveOperand at h
  simp only [lookupOperand, Option.or_none] at h
  split at h
  · rename_i found hfound
    cases h
    exact .inl hfound
  · rename_i hnone
    obtain ⟨field, -, hfield⟩ := bind_eq_ok.mp h
    cases hfield
    exact .inr ⟨hnone, field, rfl⟩

theorem resolveOperand_dbName
    (h : resolveOperand g query arg none dbName = .ok operand) :
    operand.dbName = dbName := by
  rcases resolveOperand_cases h with hfound | ⟨-, field, rfl⟩
  · exact (routeOperandForArg_some hfound).1
  · rfl

/-- Without a list lookup the external operands are those that are no parameter. -/
theorem resolveOperand_external
    (h : resolveOperand g query arg none dbName = .ok operand) :
    operand.external = (routeOperandForArg arg dbName g.opts).isNone := by
  rcases resolveOperand_cases h with hfound | ⟨hnone, field, rfl⟩
  · rw [hfound, (routeOperandForArg_some hfound).2]
    rfl
  · rw [hnone]
    rfl

/--
In a list lookup the list parameter is the only one, and its own name and the
name of the lookup key both stand for it.
-/
theorem resolveOperand_lookup {spec : GroupedManySpec}
    (hlist : ∀ name, (routeOperandForArg arg name g.opts).isSome = true ↔
      name = spec.parameterDBName)
    (h : resolveOperand g query arg (some spec) dbName = .ok operand) :
    (operand.external = false ∧ operand.dbName = spec.parameterDBName ∧
      (dbName = spec.parameterDBName ∨ dbName = spec.lookupDBName)) ∨
    (operand.external = true ∧ operand.dbName ≠ spec.parameterDBName ∧
      dbName ≠ spec.parameterDBName ∧ dbName ≠ spec.lookupDBName) := by
  unfold resolveOperand at h
  split at h
  · rename_i found hfound
    cases h
    left
    rcases Option.or_eq_some_iff.mp hfound with hfound | ⟨-, hfound⟩
    · have hname := (hlist dbName).mp (by simp [hfound])
      obtain ⟨hdb, hexternal⟩ := routeOperandForArg_some hfound
      exact ⟨hexternal, hdb.trans hname, .inl hname⟩
    · unfold lookupOperand at hfound
      dsimp only at hfound
      split at hfound
      · rename_i hkey
        obtain ⟨list, hlisted, rfl⟩ := Option.map_eq_some_iff.mp hfound
        obtain ⟨hdb, hexternal⟩ := routeOperandForArg_some hlisted
        exact ⟨hexternal, hdb, .inr hkey⟩
      · cases hfound
  · rename_i hnone
    obtain ⟨field, -, hfield⟩ := bind_eq_ok.mp h
    cases hfield
    right
    obtain ⟨hparam, hlookup⟩ := Option.or_eq_none_iff.mp hnone
    have hname : dbName ≠ spec.parameterDBName := by
      intro hname
      have hsome := (hlist dbName).mpr hname
      rw [hparam] at hsome
      cases hsome
    refine ⟨rfl, hname, hname, ?_⟩
    intro hkey
    obtain ⟨list, hlisted⟩ := Option.isSome_iff_exists.mp
      ((hlist spec.parameterDBName).mpr rfl)
    simp [lookupOperand, hkey, hlisted] at hlookup

theorem resolveOperand_external_dbName
    (h : resolveOperand g query arg groupedMany dbName = .ok operand)
    (hexternal : operand.external = true) : operand.dbName = dbName := by
  unfold resolveOperand at h
  split at h
  · rename_i found hfound
    cases h
    rcases Option.or_eq_some_iff.mp hfound with hfound | ⟨-, hfound⟩
    · exact (routeOperandForArg_some hfound).1
    · unfold lookupOperand at hfound
      split at hfound
      · cases hfound
      · split at hfound
        · obtain ⟨list, hlisted, rfl⟩ := Option.map_eq_some_iff.mp hfound
          rw [(routeOperandForArg_some hlisted).2] at hexternal
          cases hexternal
        · cases hfound
  · obtain ⟨field, -, hfield⟩ := bind_eq_ok.mp h
    cases hfield
    rfl

/-- An operand has the type of the first field with its column name. -/
theorem resolveOperand_typ_field {strct : GoStruct} {field : GoField}
    (hstrct : arg.structType = some strct)
    (h : resolveOperand g query arg none dbName = .ok operand)
    (hfield : strct.fields.find? (·.dbName == dbName) = some field) :
    operand.typ = field.typ := by
  have hfound : routeOperandForArg arg dbName g.opts =
      some (fieldOperand arg dbName field) := by
    simp only [routeOperandForArg, hstrct, hfield, Option.map_some]
  rcases resolveOperand_cases h with hoperand | ⟨hnone, -⟩
  · rw [hfound] at hoperand
    cases hoperand
    rfl
  · rw [hfound] at hnone
    cases hnone

theorem resolveOperand_typ_scalar (hstrct : arg.structType = none)
    (h : resolveOperand g query arg none arg.dbName = .ok operand) :
    operand.typ = arg.typ := by
  have hfound : routeOperandForArg arg arg.dbName g.opts =
      some (scalarOperand arg arg.dbName g.opts) := by
    simp only [routeOperandForArg, hstrct, ne_eq, not_true_eq_false, if_false]
  rcases resolveOperand_cases h with hoperand | ⟨hnone, -⟩
  · rw [hfound] at hoperand
    cases hoperand
    rfl
  · rw [hfound] at hnone
    cases hnone

theorem resolveOperands_ok {dbNames : List String} {seenNames : GoMap String Unit}
    {operands result : List RouteOperand}
    (h : resolveOperands g query arg groupedMany dbNames seenNames operands =
      .ok result) :
    ∃ rest, result = operands ++ rest ∧
      List.Forall₂ (fun dbName operand =>
        resolveOperand g query arg groupedMany dbName = .ok operand) dbNames rest ∧
      (rest.map RouteOperand.name).Nodup ∧
      ∀ name ∈ rest.map RouteOperand.name, GoMap.get? seenNames name = none := by
  induction dbNames generalizing seenNames operands with
  | nil =>
      cases h
      exact ⟨[], by simp⟩
  | cons dbName dbNames ih =>
      obtain ⟨operand, hoperand, h⟩ := bind_eq_ok.mp h
      split at h
      · cases h
      rename_i hseen
      have hfresh : GoMap.get? seenNames operand.name = none := by simpa using hseen
      obtain ⟨rest, rfl, hrest, hnodup, hnames⟩ := ih h
      exact ⟨operand :: rest, by simp, .cons hoperand hrest,
        GoMap.nodup_cons_of_missing hfresh hnodup hnames⟩

theorem resolveShardRoute_names {ann : RouteAnnotation} {route : ShardRoute}
    (h : resolveShardRoute g query arg ann groupedMany = .ok route) :
    route.name = ann.name ∧ route.methodName = routeMethodName ann.name g.opts := by
  unfold resolveShardRoute at h
  dsimp only at h
  split at h
  · cases h
  split at h
  · cases h
  obtain ⟨operands, -, hroute⟩ := bind_eq_ok.mp h
  cases hroute
  exact ⟨rfl, rfl⟩

theorem resolveShardRoute_ok {ann : RouteAnnotation} {route : ShardRoute}
    (h : resolveShardRoute g query arg ann groupedMany = .ok route) :
    List.Forall₂ (fun dbName operand =>
        resolveOperand g query arg groupedMany dbName = .ok operand)
      ann.operands route.operands ∧
    (route.operands.map RouteOperand.fieldName).Nodup := by
  unfold resolveShardRoute at h
  dsimp only at h
  split at h
  · cases h
  split at h
  · cases h
  obtain ⟨operands, hoperands, hroute⟩ := bind_eq_ok.mp h
  cases hroute
  obtain ⟨rest, hresult, hrest, hnodup, -⟩ := resolveOperands_ok hoperands
  rw [List.nil_append] at hresult
  subst hresult
  refine ⟨hrest, ?_⟩
  have hnames : operands.map RouteOperand.name =
      (operands.map RouteOperand.fieldName).map fun fieldName =>
        escape (lowerTitle fieldName) := by
    rw [List.map_map]
    apply List.map_congr_left
    intro operand hmem
    obtain ⟨dbName, -, hoperand⟩ := exists_of_mem_right hrest hmem
    exact resolveOperand_name hoperand
  rw [hnames] at hnodup
  exact List.Nodup.of_map _ hnodup

end Operands

def scalarizeGroupedManyRoute (route : ShardRoute) (spec : GroupedManySpec) :
    ShardRoute :=
  { route with operands := route.operands.map fun operand =>
      if operand.dbName = spec.parameterDBName ∧ !operand.external then
        { operand with typ := spec.elementType }
      else operand }

end Build

end PgMesh.Plugin
