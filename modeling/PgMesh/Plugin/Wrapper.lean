import PgMesh.Plugin.Route
import Mathlib.Data.List.Sort

/-!
# Parameter structures of routed queries

The store method of a routed query takes one structure, `QueryNameT`.  It embeds
the shard key of the route and has a field for every SQL parameter that the shard
key does not hold.  From its value `arg` the method reads the arguments of the
sqlc call.
-/

namespace PgMesh.Plugin

open PgMesh.Foundation

/-- An expression that reads a value from `arg`. -/
inductive ArgExpr where
  /-- `arg.<shard key type>.<field>` -/
  | shardKey (name : String)
  /-- `arg.<field>` -/
  | field (name : String)
  deriving DecidableEq, Repr

def ArgExpr.text (shardKeyType : String) : ArgExpr → String
  | .shardKey name => "arg." ++ shardKeyType ++ "." ++ name
  | .field name => "arg." ++ name

/-- An argument of the sqlc call. -/
inductive CallArg where
  /-- A parameter of the method. -/
  | param (name : String)
  /-- `arg.sqlcParams()` -/
  | sqlcParams
  | expr (e : ArgExpr)
  deriving DecidableEq, Repr

structure ShardArgWrapper where
  name : String
  shardKeyType : String
  fields : List GoField := []
  sqlcArg : QueryValue := {}
  sqlcFieldExpressions : GoMap String ArgExpr := []

inductive ShardMode where
  | none
  | routed
  | all
  | groupedCopy
  | groupedMany
  deriving DecidableEq, Repr

structure GeneratedQuery where
  methodName : String
  command : String
  kind : QueryKind
  arg : QueryValue
  ret : QueryValue
  params : List Argument
  storeParams : List Argument
  callArgs : List CallArg
  results : List String
  route : Option ShardRoute
  shardMode : ShardMode
  store : String
  shardArgs : Option ShardArgWrapper
  groupedMany : Option GroupedManySpec

/-! ## Fields of the wrapper -/

/-- The variables `usedFields` and `wrapper.fields`. -/
structure WrapperFields where
  usedFields : GoMap String String
  fields : List GoField := []

section Build

variable {ε : Type}

def appendField (queryName : String) (w : WrapperFields) (name dbName typ source : String) :
    Except (GoError ε) WrapperFields :=
  match GoMap.get? w.usedFields name with
  | some previous =>
      .error (.errorf
        "query %s shard parameter wrapper field %s conflicts between %s and %s"
        [.text queryName, .text name, .text previous, .text source])
  | none =>
      .ok
        { usedFields := GoMap.set w.usedFields name source
          fields := w.fields ++ [⟨name, dbName, typ⟩] }

/--
The loop over the fields of sqlc's parameter structure.  A field whose column
is an operand of the route is read from the shard key.  The result pairs every
field with the expression that it is read from.
-/
def wrapFields (queryName : String) (route : ShardRoute) :
    List GoField → WrapperFields →
    Except (GoError ε) (List (String × ArgExpr) × WrapperFields)
  | [], w => .ok ([], w)
  | field :: fields, w =>
      match routeOperandByDBName route field.dbName with
      | some operand => do
          let (expressions, w) ← wrapFields queryName route fields w
          return ((field.name, .shardKey operand.fieldName) :: expressions, w)
      | none => do
          let w ← appendField queryName w field.name field.dbName field.typ
            ("SQL parameter " ++ field.dbName)
          let (expressions, w) ← wrapFields queryName route fields w
          return ((field.name, .field field.name) :: expressions, w)

/-- The expression that a field is read from. -/
def wrapTarget (route : ShardRoute) (field : GoField) : ArgExpr :=
  match routeOperandByDBName route field.dbName with
  | some operand => .shardKey operand.fieldName
  | none => .field field.name

/-- The fields that the wrapper itself declares. -/
def ownFields (route : ShardRoute) (fields : List GoField) : List GoField :=
  fields.filter fun field => (routeOperandByDBName route field.dbName).isNone

theorem appendField_ok {queryName name dbName typ source : String}
    {w w' : WrapperFields}
    (h : appendField (ε := ε) queryName w name dbName typ source = .ok w') :
    GoMap.get? w.usedFields name = none ∧
      w' = ⟨GoMap.set w.usedFields name source, w.fields ++ [⟨name, dbName, typ⟩]⟩ := by
  unfold appendField at h
  split at h
  · cases h
  · rename_i hnone
    cases h
    exact ⟨hnone, rfl⟩

theorem wrapFields_ok {queryName : String} {route : ShardRoute}
    {fields : List GoField} {w w' : WrapperFields}
    {expressions : List (String × ArgExpr)}
    (h : wrapFields (ε := ε) queryName route fields w = .ok (expressions, w')) :
    expressions = fields.map (fun field => (field.name, wrapTarget route field)) ∧
      w'.fields = w.fields ++ ownFields route fields ∧
      ((ownFields route fields).map GoField.name).Nodup ∧
      ∀ name ∈ (ownFields route fields).map GoField.name,
        GoMap.get? w.usedFields name = none := by
  induction fields generalizing w expressions with
  | nil =>
      cases h
      simp [ownFields]
  | cons field fields ih =>
      unfold wrapFields at h
      split at h
      · rename_i operand hoperand
        obtain ⟨⟨rest, w₁⟩, hrest, hok⟩ := bind_eq_ok.mp h
        cases hok
        obtain ⟨rfl, hfields, hnodup, hfresh⟩ := ih hrest
        have hown : ownFields route (field :: fields) = ownFields route fields := by
          simp [ownFields, hoperand]
        rw [hown]
        refine ⟨?_, hfields, hnodup, hfresh⟩
        simp [wrapTarget, hoperand]
      · rename_i hoperand
        obtain ⟨w₁, hw₁, h⟩ := bind_eq_ok.mp h
        obtain ⟨⟨rest, w₂⟩, hrest, hok⟩ := bind_eq_ok.mp h
        cases hok
        obtain ⟨hunused, rfl⟩ := appendField_ok hw₁
        obtain ⟨rfl, hfields, hnodup, hfresh⟩ := ih hrest
        have hown : ownFields route (field :: fields) =
            field :: ownFields route fields := by
          simp [ownFields, hoperand]
        rw [hown]
        refine ⟨?_, ?_, GoMap.nodup_cons_of_missing hunused hnodup hfresh⟩
        · simp [wrapTarget, hoperand]
        · simp [hfields]

/-- The map `sqlcFieldExpressions`, filled entry by entry. -/
def expressionMap (expressions : List (String × ArgExpr)) : GoMap String ArgExpr :=
  expressions.foldl (fun m entry => GoMap.set m entry.1 entry.2) []

variable [Unicode]

/-- The field of a scalar parameter: its name, column name and type. -/
def scalarField (arg : QueryValue) (opts : Options) : GoField :=
  let fieldName := structName arg.dbName opts
  if fieldName = "" then ⟨structName arg.name opts, arg.name, arg.defineType opts⟩
  else ⟨fieldName, arg.dbName, arg.defineType opts⟩

def wrapScalar (queryName : String) (route : ShardRoute) (arg : QueryValue)
    (opts : Options) (w : WrapperFields) :
    Except (GoError ε) (ArgExpr × WrapperFields) :=
  match routeOperandByDBName route arg.dbName with
  | some operand => .ok (.shardKey operand.fieldName, w)
  | none => do
      let field := scalarField arg opts
      let w ← appendField queryName w field.name field.dbName field.typ
        ("SQL parameter " ++ arg.dbName)
      return (.field field.name, w)

def wrapperType (query : GeneratedQuery) (opts : Options) : String :=
  let typ := query.methodName ++ "T"
  let typ := if opts.emitParamsStructPointers then "*" ++ typ else typ
  if query.shardMode = .groupedCopy then "[]" ++ typ else typ

/-- The parts of the wrapper that depend on the shape of the parameters. -/
def wrapArg (query : GeneratedQuery) (route : ShardRoute) (opts : Options) :
    Except (GoError ε) (ShardArgWrapper × List CallArg) := do
  let start : WrapperFields := { usedFields := [(route.methodName, "shard key")] }
  let wrapper : ShardArgWrapper :=
    { name := query.methodName ++ "T", shardKeyType := route.methodName }
  let arg := query.arg
  if arg.isEmpty then return (wrapper, [])
  match arg.structType with
  | some strct =>
      let (expressions, w) ← wrapFields query.methodName route strct.fields start
      if arg.emit then
        return (
          { wrapper with
            fields := w.fields
            sqlcArg := arg
            sqlcFieldExpressions := expressionMap expressions },
          [.sqlcParams])
      else
        return ({ wrapper with fields := w.fields },
          expressions.map fun entry => .expr entry.2)
  | none =>
      let (e, w) ← wrapScalar query.methodName route arg opts start
      return ({ wrapper with fields := w.fields }, [.expr e])

section Shapes

variable {query : GeneratedQuery} {route : ShardRoute} {opts : Options}
  {wrapper : ShardArgWrapper} {callArgs : List CallArg}

theorem wrapArg_empty (hempty : query.arg.isEmpty = true)
    (h : wrapArg (ε := ε) query route opts = .ok (wrapper, callArgs)) :
    wrapper.fields = [] ∧ callArgs = [] := by
  simp only [wrapArg, hempty, if_true] at h
  cases h
  exact ⟨rfl, rfl⟩

theorem wrapArg_struct {strct : GoStruct} (hstrct : query.arg.structType = some strct)
    (h : wrapArg (ε := ε) query route opts = .ok (wrapper, callArgs)) :
    wrapper.fields = ownFields route strct.fields ∧
      ((ownFields route strct.fields).map GoField.name).Nodup ∧
      if query.arg.emit then
        wrapper.sqlcArg = query.arg ∧ callArgs = [.sqlcParams] ∧
          wrapper.sqlcFieldExpressions = expressionMap
            (strct.fields.map fun field => (field.name, wrapTarget route field))
      else
        callArgs = strct.fields.map fun field => .expr (wrapTarget route field) := by
  have hempty : query.arg.isEmpty = false := by simp [QueryValue.isEmpty, hstrct]
  simp only [wrapArg, hempty, hstrct, Bool.false_eq_true, if_false] at h
  obtain ⟨⟨expressions, w⟩, hwrap, h⟩ := bind_eq_ok.mp h
  obtain ⟨rfl, hfields, hnodup, -⟩ := wrapFields_ok hwrap
  cases hemit : query.arg.emit with
  | true =>
      simp only [hemit, if_true] at h
      cases h
      exact ⟨by simpa using hfields, hnodup, rfl, rfl, rfl⟩
  | false =>
      simp only [hemit, Bool.false_eq_true, if_false] at h
      cases h
      refine ⟨by simpa using hfields, hnodup, ?_⟩
      simp

theorem wrapArg_scalar (hempty : query.arg.isEmpty = false)
    (hstrct : query.arg.structType = none)
    (h : wrapArg (ε := ε) query route opts = .ok (wrapper, callArgs)) :
    (∃ operand, routeOperandByDBName route query.arg.dbName = some operand ∧
      wrapper.fields = [] ∧ callArgs = [.expr (.shardKey operand.fieldName)]) ∨
    (routeOperandByDBName route query.arg.dbName = none ∧
      wrapper.fields = [scalarField query.arg opts] ∧
      callArgs = [.expr (.field (scalarField query.arg opts).name)]) := by
  simp only [wrapArg, hempty, hstrct, Bool.false_eq_true, if_false] at h
  obtain ⟨⟨e, w⟩, hscalar, h⟩ := bind_eq_ok.mp h
  cases h
  unfold wrapScalar at hscalar
  split at hscalar
  · rename_i operand hoperand
    cases hscalar
    exact .inl ⟨operand, hoperand, rfl, rfl⟩
  · rename_i hoperand
    obtain ⟨w₁, hw₁, hok⟩ := bind_eq_ok.mp hscalar
    obtain ⟨-, rfl⟩ := appendField_ok hw₁
    cases hok
    exact .inr ⟨hoperand, rfl, rfl⟩

end Shapes

/-- The parameter of the store method in front of the wrapper, the context. -/
def contextParam (query : GeneratedQuery) : Argument :=
  query.params.headD ⟨"ctx", "context.Context"⟩

def wrapShardParameters (query : GeneratedQuery) (route : ShardRoute)
    (opts : Options) : Except (GoError ε) GeneratedQuery := do
  let (wrapper, callArgs) ← wrapArg query route opts
  let operands := route.operands.map fun operand =>
    { operand with
      expression := ArgExpr.text wrapper.shardKeyType (.shardKey operand.fieldName) }
  return { query with
    route := some { route with operands }
    storeParams := [contextParam query, ⟨defaultArgumentName, wrapperType query opts⟩]
    callArgs := .param (contextParam query).name :: callArgs
    shardArgs := some wrapper }

theorem wrapShardParameters_ok {query out : GeneratedQuery} {route : ShardRoute}
    {opts : Options} (h : wrapShardParameters (ε := ε) query route opts = .ok out) :
    ∃ wrapper callArgs, wrapArg (ε := ε) query route opts = .ok (wrapper, callArgs) ∧
      out.shardArgs = some wrapper ∧
      out.callArgs = .param (contextParam query).name :: callArgs ∧
      out.shardMode = query.shardMode ∧
      ∃ operands, out.route = some { route with operands } ∧
        operands.map (fun operand => (operand.fieldName, operand.typ)) =
          route.operands.map fun operand => (operand.fieldName, operand.typ) := by
  obtain ⟨⟨wrapper, callArgs⟩, hwrap, h⟩ := bind_eq_ok.mp h
  cases h
  refine ⟨wrapper, callArgs, hwrap, rfl, rfl, rfl, _, rfl, ?_⟩
  simp

/-- Wrapping changes only the expressions of the operands. -/
theorem wrapShardParameters_route {query out : GeneratedQuery} {route : ShardRoute}
    {opts : Options} (h : wrapShardParameters (ε := ε) query route opts = .ok out) :
    ∃ expression : RouteOperand → String,
      out.route = some { route with
        operands := route.operands.map fun operand =>
          { operand with expression := expression operand } } ∧
      out.shardMode = query.shardMode ∧ out.groupedMany = query.groupedMany := by
  obtain ⟨⟨wrapper, callArgs⟩, -, h⟩ := bind_eq_ok.mp h
  cases h
  exact ⟨_, rfl, rfl, rfl⟩

/-- The expression of the lookup value of an item. -/
def wrapLookup (query : GeneratedQuery) (route : ShardRoute) (spec : GroupedManySpec) :
    Except (GoError ε) (String × WrapperFields) :=
  let start : WrapperFields := { usedFields := [(route.methodName, "shard key")] }
  match routeOperandByDBName route spec.parameterDBName with
  | some operand =>
      .ok ("item." ++ route.methodName ++ "." ++ operand.fieldName, start)
  | none => do
      let w ← appendField query.methodName start spec.lookupField spec.lookupDBName
        spec.elementType ("SQL list parameter " ++ spec.parameterDBName)
      return ("item." ++ spec.lookupField, w)

def wrapGroupedManyShardOperands (query : GeneratedQuery) (route : ShardRoute)
    (spec : GroupedManySpec) (opts : Options) :
    Except (GoError ε) GeneratedQuery := do
  let (lookupExpression, w) ← wrapLookup query route spec
  let typ := query.methodName ++ "T"
  let itemType := if opts.emitParamsStructPointers then "*" ++ typ else typ
  return { query with
    storeParams := [contextParam query, ⟨defaultArgumentName, "[]" ++ itemType⟩]
    shardArgs := some { name := typ, shardKeyType := route.methodName, fields := w.fields }
    groupedMany := some { spec with
      lookupExpression
      itemIsPointer := spec.itemIsPointer || opts.emitParamsStructPointers } }

def wrapQuery (query : GeneratedQuery) (opts : Options) :
    Except (GoError ε) GeneratedQuery :=
  match query.route, query.shardMode, query.groupedMany with
  | none, _, _ => .ok query
  | some route, .groupedMany, some spec =>
      wrapGroupedManyShardOperands query route spec opts
  | some route, _, _ => wrapShardParameters query route opts

/-- The expression that the lookup value of an item is read from. -/
def lookupTarget (route : ShardRoute) (spec : GroupedManySpec) : ArgExpr :=
  match routeOperandByDBName route spec.parameterDBName with
  | some operand => .shardKey operand.fieldName
  | none => .field spec.lookupField

/-- The text of an expression that reads from `item` instead of `arg`. -/
def ArgExpr.itemText (shardKeyType : String) : ArgExpr → String
  | .shardKey name => "item." ++ shardKeyType ++ "." ++ name
  | .field name => "item." ++ name

omit [Unicode] in
theorem wrapLookup_ok {query : GeneratedQuery} {route : ShardRoute}
    {spec : GroupedManySpec} {lookupExpression : String} {w : WrapperFields}
    (h : wrapLookup (ε := ε) query route spec = .ok (lookupExpression, w)) :
    lookupExpression = (lookupTarget route spec).itemText route.methodName ∧
      (w.fields.map GoField.name).Nodup ∧
      ∀ name, lookupTarget route spec = .field name → name ∈ w.fields.map GoField.name := by
  unfold wrapLookup at h
  unfold lookupTarget
  dsimp only at h
  cases hoperand : routeOperandByDBName route spec.parameterDBName with
  | some operand =>
      rw [hoperand] at h
      cases h
      exact ⟨rfl, .nil, by simp⟩
  | none =>
      rw [hoperand] at h
      obtain ⟨w', hfield, h⟩ := bind_eq_ok.mp h
      obtain ⟨-, rfl⟩ := appendField_ok hfield
      cases h
      refine ⟨rfl, List.nodup_singleton _, ?_⟩
      rintro _ ⟨⟩
      exact List.mem_singleton.mpr rfl

omit [Unicode] in
theorem wrapGroupedManyShardOperands_ok {query out : GeneratedQuery}
    {route : ShardRoute} {spec : GroupedManySpec} {opts : Options}
    (h : wrapGroupedManyShardOperands (ε := ε) query route spec opts = .ok out) :
    ∃ lookupExpression w wrapper itemIsPointer,
      wrapLookup (ε := ε) query route spec = .ok (lookupExpression, w) ∧
      out.route = query.route ∧ out.shardMode = query.shardMode ∧
      out.shardArgs = some wrapper ∧ wrapper.fields = w.fields ∧
      out.groupedMany = some { spec with lookupExpression, itemIsPointer } := by
  obtain ⟨⟨lookupExpression, w⟩, hlookup, h⟩ := bind_eq_ok.mp h
  cases h
  exact ⟨lookupExpression, w, _, _, hlookup, rfl, rfl, rfl, rfl, rfl⟩

theorem wrapQuery_ok {query out : GeneratedQuery} {opts : Options}
    (h : wrapQuery (ε := ε) query opts = .ok out) (hroute : out.route ≠ none) :
    ∃ route, query.route = some route ∧
      ((∃ spec, query.shardMode = .groupedMany ∧ query.groupedMany = some spec ∧
          wrapGroupedManyShardOperands (ε := ε) query route spec opts = .ok out) ∨
        (query.shardMode = .groupedMany → query.groupedMany = none) ∧
          wrapShardParameters (ε := ε) query route opts = .ok out) := by
  unfold wrapQuery at h
  split at h
  · rename_i hnone
    cases h
    exact absurd hnone hroute
  · rename_i route spec hsome hmode hspec
    exact ⟨route, hsome, .inl ⟨spec, hmode, hspec, h⟩⟩
  · rename_i route hsome hother
    refine ⟨route, hsome, .inr ⟨fun hmode => ?_, h⟩⟩
    cases hspec : query.groupedMany with
    | none => rfl
    | some spec => exact absurd hspec (hother spec hmode)

theorem wrapQuery_routed {query out : GeneratedQuery} {opts : Options}
    (h : wrapQuery (ε := ε) query opts = .ok out) (hroute : out.route ≠ none)
    (hmode : out.shardMode ≠ .groupedMany) :
    ∃ route, query.route = some route ∧ query.shardMode ≠ .groupedMany ∧
      wrapShardParameters (ε := ε) query route opts = .ok out := by
  obtain ⟨route, hsome, ⟨spec, hgrouped, -, hwrap⟩ | ⟨-, hwrap⟩⟩ := wrapQuery_ok h hroute
  · obtain ⟨-, -, -, -, -, -, hsame, -⟩ := wrapGroupedManyShardOperands_ok hwrap
    rw [hsame] at hmode
    exact absurd hgrouped hmode
  · obtain ⟨-, -, hsame, -⟩ := wrapShardParameters_route hwrap
    rw [hsame] at hmode
    exact ⟨route, hsome, hmode, hwrap⟩

/-! ## All queries -/

def buildLookup (g : Generator ε) (query : Query) (arg ret : QueryValue) :
    Except (GoError ε) (Option GroupedManySpec) :=
  if query.cmd = cmdMany then buildGroupedManySpec g query arg ret else .ok none

/-- The route, the mode and the lookup of a query with a shard annotation. -/
def buildRoute (g : Generator ε) (query : Query) (arg ret : QueryValue)
    (results : List String) (ann : RouteAnnotation) :
    Except (GoError ε) (Option ShardRoute × ShardMode × Option GroupedManySpec) :=
  if ann.name = "all" then
    if ann.operands.length ≠ 0 then
      .error (.errorf "query %s shard route %q cannot declare operands"
        [.text query.name, .text "all"])
    else if query.cmd = cmdMany ∨ query.cmd = cmdExec ∨ query.cmd = cmdExecRows then
      .ok (none, .all, none)
    else
      .error (.errorf ("query %s uses shard: all() with unsupported command %s; " ++
        "expected :many, :exec, or :execrows") [.text query.name, .text query.cmd])
  else if hasPrefix query.cmd ":batch" then
    .error (.errorf ("query %s uses %s and cannot declare shard metadata; " ++
      "grouped routing is supported only for :copyfrom")
      [.text query.name, .text query.cmd])
  else do
    let groupedMany ← buildLookup g query arg ret
    let route ← resolveShardRoute g query arg ann groupedMany
    if !lastResultIsError results then
      .error (.errorf ("query %s cannot be shard-routed because its generated " ++
        "result has no error") [.text query.name])
    else
      match groupedMany with
      | some spec =>
          .ok (some (scalarizeGroupedManyRoute route spec), .groupedMany, some spec)
      | none =>
          .ok (some route,
            if query.cmd = cmdCopyFrom then .groupedCopy else .routed, none)

/-- A route that was built is the resolved one, with scalar operands in a list lookup. -/
theorem buildRoute_ok {g : Generator ε} {query : Query} {arg ret : QueryValue}
    {results : List String} {ann : RouteAnnotation} {route : ShardRoute}
    {mode : ShardMode} {spec : Option GroupedManySpec}
    (h : buildRoute g query arg ret results ann = .ok (some route, mode, spec)) :
    ∃ resolved, buildLookup g query arg ret = .ok spec ∧
      resolveShardRoute g query arg ann spec = .ok resolved ∧
      ((spec = none ∧ mode ≠ .groupedMany ∧ route = resolved) ∨
        ∃ lookup, spec = some lookup ∧ mode = .groupedMany ∧
          route = scalarizeGroupedManyRoute resolved lookup) := by
  unfold buildRoute at h
  split at h
  · split at h
    · cases h
    · split at h <;> cases h
  split at h
  · cases h
  obtain ⟨groupedMany, hlookup, h⟩ := bind_eq_ok.mp h
  obtain ⟨resolved, hresolved, h⟩ := bind_eq_ok.mp h
  split at h
  · cases h
  cases groupedMany with
  | none =>
      cases h
      refine ⟨route, hlookup, hresolved, .inl ⟨rfl, ?_, rfl⟩⟩
      split <;> simp
  | some lookup =>
      cases h
      exact ⟨resolved, hlookup, hresolved, .inr ⟨lookup, rfl, rfl, rfl⟩⟩

/-- The route `all()` has no route of its own; every other annotation has one. -/
theorem buildRoute_cases {g : Generator ε} {query : Query} {arg ret : QueryValue}
    {results : List String} {ann : RouteAnnotation} {route : Option ShardRoute}
    {mode : ShardMode} {spec : Option GroupedManySpec}
    (h : buildRoute g query arg ret results ann = .ok (route, mode, spec)) :
    (route = none ∧ mode = .all ∧
      (query.cmd = cmdMany ∨ query.cmd = cmdExec ∨ query.cmd = cmdExecRows)) ∨
    (∃ r, route = some r) ∧ mode ∈ [.routed, .groupedCopy, .groupedMany] ∧
      lastResultIsError results = true := by
  unfold buildRoute at h
  split at h
  · split at h
    · cases h
    split at h
    case isTrue hcmd =>
      cases h
      exact .inl ⟨rfl, rfl, hcmd⟩
    case isFalse => cases h
  split at h
  · cases h
  obtain ⟨groupedMany, -, h⟩ := bind_eq_ok.mp h
  obtain ⟨resolved, -, h⟩ := bind_eq_ok.mp h
  split at h
  · cases h
  case isFalse herror =>
    have herror : lastResultIsError results = true := by simpa using herror
    cases groupedMany with
    | none =>
        cases h
        refine .inr ⟨⟨_, rfl⟩, ?_, herror⟩
        split <;> simp
    | some lookup =>
        cases h
        exact .inr ⟨⟨_, rfl⟩, by simp, herror⟩

/-- One round of the first loop of `buildQueries`. -/
def buildQuery (g : Generator ε) (query : Query) :
    Except (GoError ε) GeneratedQuery := do
  let arg ← buildQueryArg g query
  let ret ← buildQueryReturn g query
  let params : List Argument := ⟨"ctx", "context.Context"⟩ ::
    if query.cmd == cmdCopyFrom || hasPrefix query.cmd ":batch" then
      if arg.isEmpty then [] else [arg.slicePair g.opts]
    else arg.pairs g.opts
  let results ← resultTypes query ret g.opts
  let (kind, ann, store) ← g.classifyQuery query
  let (route, shardMode, groupedMany) ←
    match ann with
    | none => .ok (none, .none, none)
    | some ann => buildRoute g query arg ret results ann
  return {
    methodName := query.name
    command := query.cmd
    kind, arg, ret, params
    storeParams := params
    callArgs := params.map fun param => .param param.name
    results, route, shardMode, store
    shardArgs := none
    groupedMany }

theorem buildQuery_ok {g : Generator ε} {query : Query} {built : GeneratedQuery}
    {route : ShardRoute} (h : buildQuery g query = .ok built)
    (hroute : built.route = some route) :
    buildQueryArg g query = .ok built.arg ∧
      ∃ ret results kind ann store, buildQueryReturn g query = .ok ret ∧
        g.classifyQuery query = .ok (kind, some ann, store) ∧
        buildRoute g query built.arg ret results ann =
          .ok (some route, built.shardMode, built.groupedMany) := by
  obtain ⟨arg, harg, h⟩ := bind_eq_ok.mp h
  obtain ⟨ret, hret, h⟩ := bind_eq_ok.mp h
  obtain ⟨results, -, h⟩ := bind_eq_ok.mp h
  obtain ⟨⟨kind, ann, store⟩, hclassify, h⟩ := bind_eq_ok.mp h
  cases ann with
  | none =>
      cases h
      cases hroute
  | some ann =>
      obtain ⟨⟨route', mode, spec⟩, hbuilt, h⟩ := bind_eq_ok.mp h
      cases h
      cases hroute
      exact ⟨harg, ret, results, kind, ann, store, hret, hclassify, hbuilt⟩

theorem buildQuery_routed {g : Generator ε} {query : Query} {built : GeneratedQuery}
    {route : ShardRoute} (h : buildQuery g query = .ok built)
    (hroute : built.route = some route) (hmode : built.shardMode ≠ .groupedMany) :
    buildQueryArg g query = .ok built.arg ∧
      ∃ kind ann store, g.classifyQuery query = .ok (kind, some ann, store) ∧
        resolveShardRoute g query built.arg ann none = .ok route := by
  obtain ⟨harg, ret, results, kind, ann, store, -, hclassify, hbuilt⟩ :=
    buildQuery_ok h hroute
  obtain ⟨resolved, -, hresolved, ⟨hnone, -, rfl⟩ | ⟨-, -, hgrouped, -⟩⟩ :=
    buildRoute_ok hbuilt
  · rw [hnone] at hresolved
    exact ⟨harg, kind, ann, store, hclassify, hresolved⟩
  · exact absurd hgrouped hmode

def buildQueries (g : Generator ε) (queries : List Query) :
    Except (GoError ε) (List GeneratedQuery) := do
  let named := queries.filter fun query => query.name ≠ "" && query.cmd ≠ ""
  let out ← named.mapM (buildQuery g)
  let out ← out.mapM (wrapQuery · g.opts)
  return out.insertionSort (·.methodName ≤ ·.methodName)

theorem exists_of_mem_buildQueries {g : Generator ε} {queries : List Query}
    {outs : List GeneratedQuery} (h : buildQueries g queries = .ok outs)
    {out : GeneratedQuery} (hout : out ∈ outs) :
    ∃ query ∈ queries, ∃ built, buildQuery g query = .ok built ∧
      wrapQuery (ε := ε) built g.opts = .ok out := by
  obtain ⟨builts, hbuilts, h⟩ := bind_eq_ok.mp h
  obtain ⟨wrapped, hwrapped, h⟩ := bind_eq_ok.mp h
  cases h
  rw [List.mem_insertionSort] at hout
  obtain ⟨built, hmem, hwrap⟩ := exists_of_mem_mapM hwrapped hout
  obtain ⟨query, hquery, hbuild⟩ := exists_of_mem_mapM hbuilts hmem
  exact ⟨query, List.mem_of_mem_filter hquery, built, hbuild, hwrap⟩

end Build

end PgMesh.Plugin
