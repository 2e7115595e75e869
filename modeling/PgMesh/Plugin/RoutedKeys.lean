import PgMesh.Plugin.KeyReads

/-!
# Shard key and SQL parameters of one call

For the parameters of a method that is not a list lookup: a structure, emitted
or flattened, a scalar, or none.  Every routed parameter is read from the shard
key; only an emitted structure, which is filled through a map by Go field name,
can confuse two parameters.
-/

namespace PgMesh.Plugin

open PgMesh.Foundation

variable {ν ε : Type} [Unicode]

/-- The column names of the SQL parameters. -/
def parameterNames (g : Generator ε) (query : Query) : List String :=
  if query.params.length = 1 ∧ g.opts.queryParameterLimit ≠ 0 then
    query.params.map fun param => param.column.name
  else columnNames (query.params.map Parameter.column)

/-- The Go field and the column of every parameter of a parameter structure. -/
def namedColumns (g : Generator ε) (query : Query) : GoMap String String :=
  (fieldNames g.opts [] (query.params.map Parameter.column).zipIdx).zip
    (columnNames (query.params.map Parameter.column))

/--
The annotation names each SQL parameter in one way: a lone parameter has a Go
name or a Go type, the last parameter with the Go field of a routed one has its
column, and a list parameter is not named both by its own name and by the
singular of it when the result shows the singular only.
-/
structure Consistent (g : Generator ε) (query : Query) (operands : List String) :
    Prop where
  lone : g.opts.queryParameterLimit ≠ 0 → ∀ param, query.params = [param] →
    param.column.name ∈ operands →
      escape (paramName param) ≠ "" ∨ g.goType param.column ≠ ""
  fields : query.params.length > g.opts.queryParameterLimit ∨ query.cmd = cmdCopyFrom →
    ∀ entry ∈ namedColumns g query, entry.2 ∈ operands →
      GoMap.get? (namedColumns g query).reverse entry.1 = some entry.2
  lookup : query.cmd = cmdMany → ∀ param, query.params = [param] →
    isOneDimensionalArray param.column = true → param.column.name ∈ operands →
      singular g param.column.name ∈ operands →
        singular g param.column.name = param.column.name ∨
          param.column.name ∈ resultColumns g query

/-- The query is not a list lookup. -/
def Plain (query : Query) : Prop :=
  query.cmd = cmdMany → ∀ param, query.params = [param] →
    isOneDimensionalArray param.column = false

variable {g : Generator ε} {query : Query} {built out : GeneratedQuery}
  {ann : RouteAnnotation} {route : ShardRoute} {arg : QueryValue}
  {dbNames : List String}

omit [Unicode] in
theorem dbName_of_wrapTarget (hnodup : (route.operands.map RouteOperand.fieldName).Nodup)
    {field : GoField} {operand : RouteOperand} (hmem : operand ∈ route.operands)
    (h : wrapTarget route field = .shardKey operand.fieldName) :
    field.dbName = operand.dbName := by
  cases hfind : routeOperandByDBName route field.dbName with
  | none =>
      rw [wrapTarget_of_none hfind] at h
      cases h
  | some found =>
      rw [wrapTarget_of_operand hfind] at h
      obtain ⟨hfound, hdb⟩ := routeOperandByDBName_some hfind
      have hsame : found = operand :=
        List.inj_on_of_nodup_map hnodup hfound hmem (ArgExpr.shardKey.inj h)
      rw [← hdb, hsame]

section Operands

variable (hoperands : List.Forall₂ (fun dbName operand =>
  resolveOperand g query arg none dbName = .ok operand) dbNames route.operands)

include hoperands

/-- Operands of one column are resolved alike, so there is only one. -/
theorem routeOperandByDBName_of_mem {operand : RouteOperand}
    (hmem : operand ∈ route.operands) :
    routeOperandByDBName route operand.dbName = some operand := by
  cases hfind : routeOperandByDBName route operand.dbName with
  | none => exact absurd (List.mem_map_of_mem hmem) (routeOperandByDBName_none.mp hfind)
  | some found =>
      obtain ⟨hfound, hdb⟩ := routeOperandByDBName_some hfind
      obtain ⟨dbName, -, hoperand⟩ := exists_of_mem_right hoperands hmem
      obtain ⟨dbName', -, hoperand'⟩ := exists_of_mem_right hoperands hfound
      have hsame : dbName' = dbName := by
        rw [← resolveOperand_dbName hoperand', ← resolveOperand_dbName hoperand, hdb]
      rw [hsame, hoperand] at hoperand'
      cases hoperand'
      rfl

theorem bound_of_routed {dbName : String} {operand : RouteOperand}
    (hfind : routeOperandByDBName route dbName = some operand)
    (hparam : (routeOperandForArg arg dbName g.opts).isSome = true) :
    (dbName, operand.fieldName) ∈ route.bound := by
  obtain ⟨hmem, hdb⟩ := routeOperandByDBName_some hfind
  obtain ⟨dbName', -, hoperand⟩ := exists_of_mem_right hoperands hmem
  have hname : dbName' = dbName := (resolveOperand_dbName hoperand).symm.trans hdb
  refine mem_bound.mpr ⟨operand, hmem, ?_, hdb, rfl⟩
  rw [resolveOperand_external hoperand, hname]
  cases hsome : routeOperandForArg arg dbName g.opts with
  | none =>
      rw [hsome] at hparam
      cases hparam
  | some _ => rfl

theorem routed_of_bound {dbName fieldName : String}
    (hentry : (dbName, fieldName) ∈ route.bound) :
    dbName ∈ dbNames ∧ (routeOperandForArg arg dbName g.opts).isSome = true ∧
      ∃ operand, routeOperandByDBName route dbName = some operand ∧
        operand.fieldName = fieldName := by
  obtain ⟨operand, hmem, hexternal, rfl, rfl⟩ := mem_bound.mp hentry
  obtain ⟨dbName, hdbName, hoperand⟩ := exists_of_mem_right hoperands hmem
  have hname := resolveOperand_dbName hoperand
  rw [resolveOperand_external hoperand, ← hname] at hexternal
  refine ⟨hname ▸ hdbName, ?_, operand, routeOperandByDBName_of_mem hoperands hmem, rfl⟩
  cases hsome : routeOperandForArg arg operand.dbName g.opts with
  | none =>
      rw [hsome] at hexternal
      cases hexternal
  | some _ => rfl

theorem readsKey_emitted_iff {fields : List GoField}
    (hnodup : (route.operands.map RouteOperand.fieldName).Nodup)
    (hparams : ∀ field ∈ fields,
      (routeOperandForArg arg field.dbName g.opts).isSome = true) :
    ReadsKey route.bound (fields.map GoField.dbName) (sentTargets true route fields) ↔
      ∀ entry ∈ fields.map (fun field => (field.name, field.dbName)),
        entry.2 ∈ dbNames →
          GoMap.get? (fields.map fun field => (field.name, field.dbName)).reverse entry.1 =
            some entry.2 := by
  constructor
  · intro hkey entry hentry hrouted
    obtain ⟨field, hfield, rfl⟩ := List.mem_map.mp hentry
    dsimp only at hrouted ⊢
    have hmem : field.dbName ∈ route.operands.map RouteOperand.dbName := by
      rw [operands_eq hoperands]
      exact hrouted
    obtain ⟨operand, hoperand, hdb⟩ := List.mem_map.mp hmem
    have hfind := routeOperandByDBName_of_mem hoperands hoperand
    rw [hdb] at hfind
    have hbound := bound_of_routed hoperands hfind (hparams field hfield)
    obtain ⟨i, hi⟩ := List.mem_iff_getElem?.mp hfield
    have hexpr := hkey _ hbound i (by rw [List.getElem?_map, hi]; rfl)
    simp only [sentTargets, if_true, List.getElem?_map, hi, Option.map_some,
      Option.some.injEq] at hexpr
    -- The last field of this name is read from the same operand.
    have hkeys : field.name ∈
        ((fields.map fun field => (field.name, field.dbName)).reverse.map Prod.fst) := by
      simpa using ⟨field, hfield, rfl⟩
    obtain ⟨dbName, hlast⟩ := Option.isSome_iff_exists.mp (GoMap.isSome_get?.mpr hkeys)
    rw [emittedTarget_eq hlast] at hexpr
    have hsame : dbName = operand.dbName := dbName_of_wrapTarget hnodup hoperand hexpr
    rw [hlast, hsame, hdb]
  · rintro hlast ⟨dbName, fieldName⟩ hentry i hname
    obtain ⟨hrouted, -, operand, hfind, rfl⟩ := routed_of_bound hoperands hentry
    obtain ⟨field, hi, rfl⟩ := Option.map_eq_some_iff.mp (List.getElem?_map ▸ hname)
    have hfield := List.mem_of_getElem? hi
    have hget := hlast (field.name, field.dbName) (List.mem_map.mpr ⟨field, hfield, rfl⟩)
      hrouted
    simp only [sentTargets, if_true, List.getElem?_map, hi, Option.map_some,
      emittedTarget_eq hget, Option.some.injEq]
    exact wrapTarget_of_operand hfind

theorem readsKey_flattened {fields : List GoField} :
    ReadsKey route.bound (fields.map GoField.dbName) (sentTargets false route fields) := by
  rintro ⟨dbName, fieldName⟩ hentry i hname
  obtain ⟨-, -, operand, hfind, rfl⟩ := routed_of_bound hoperands hentry
  obtain ⟨field, hi, rfl⟩ := Option.map_eq_some_iff.mp (List.getElem?_map ▸ hname)
  simp only [sentTargets, Bool.false_eq_true, if_false, List.getElem?_map, hi,
    Option.map_some, Option.some.injEq]
  exact wrapTarget_of_operand hfind

end Operands

omit [Unicode] in
theorem bound_expression (expression : RouteOperand → String) :
    ShardRoute.bound { route with
      operands := route.operands.map fun operand =>
        { operand with expression := expression operand } } = route.bound := by
  simp [ShardRoute.bound, List.filter_map, Function.comp_def]

theorem exists_bound_wrapper
    (hwrap : wrapShardParameters (ε := ε) built route g.opts = .ok out) :
    ∃ route' wrapper callArgs,
      wrapArg (ε := ε) built route g.opts = .ok (wrapper, callArgs) ∧
      out.route = some route' ∧ out.shardArgs = some wrapper ∧
      out.callArgs = .param (contextParam built).name :: callArgs ∧
      declared route' wrapper = declared route wrapper ∧ route'.bound = route.bound := by
  obtain ⟨route', wrapper, callArgs, harg, hroute', hwrapper, hcall, hdeclared⟩ :=
    exists_wrapper hwrap
  obtain ⟨expression, hexpression, -⟩ := wrapShardParameters_route hwrap
  refine ⟨route', wrapper, callArgs, harg, hroute', hwrapper, hcall, hdeclared, ?_⟩
  cases hroute'.symm.trans hexpression
  exact bound_expression expression

/-- The wrapper of a parameter structure declares what the call reads. -/
theorem reads_struct {strct : GoStruct}
    (hstruct : built.arg.structType = some strct)
    (hroute : resolveShardRoute g query built.arg ann none = .ok route)
    (hwrap : wrapShardParameters (ε := ε) built route g.opts = .ok out)
    (hmode : out.shardMode = .groupedMany → out.groupedMany = none) :
    ∃ route' wrapper, route'.bound = route.bound ∧
      Reads out route' wrapper (sentTargets built.arg.emit route strct.fields) := by
  obtain ⟨hoperands, hnodup⟩ := resolveShardRoute_ok hroute
  obtain ⟨route', wrapper, callArgs, harg, hroute', hwrapper, hcall, hdeclared, hbound⟩ :=
    exists_bound_wrapper hwrap
  obtain ⟨hfields, hown, -⟩ := wrapArg_struct hstruct harg
  have hsends := sendsFrom_struct hstruct harg hroute' hwrapper hcall
  refine ⟨route', wrapper, hbound, hroute', hwrapper, ?_, ?_, ?_, ?_⟩
  · intro ν arg
    rw [sentFor_eq_sent hmode, hsends.sent_eq]
  · rw [hdeclared]
    exact nodup_declared hnodup (by rw [hfields]; exact hown)
  · intro e he
    obtain ⟨field, hfield, rfl⟩ := exists_of_mem_sentTargets he
    rw [hdeclared]
    cases hoperand : routeOperandByDBName route field.dbName with
    | none =>
        rw [wrapTarget_of_none hoperand]
        refine List.mem_map.mpr ⟨(.field field.name, field.typ), ?_, rfl⟩
        apply List.mem_append_right
        rw [hfields]
        exact List.mem_map.mpr ⟨field, by simp [ownFields, hfield, hoperand], rfl⟩
    | some operand =>
        rw [wrapTarget_of_operand hoperand]
        refine List.mem_map.mpr ⟨(.shardKey operand.fieldName, operand.typ), ?_, rfl⟩
        apply List.mem_append_left
        exact List.mem_map.mpr ⟨operand, (routeOperandByDBName_some hoperand).1, rfl⟩
  · intro name hname
    obtain ⟨field, hfield, htarget⟩ := exists_of_mem_sentTargets hname
    rw [hbound]
    cases hoperand : routeOperandByDBName route field.dbName with
    | none =>
        rw [wrapTarget_of_none hoperand] at htarget
        cases htarget
    | some operand =>
        rw [wrapTarget_of_operand hoperand] at htarget
        cases htarget
        refine List.mem_map.mpr ⟨_, bound_of_routed hoperands hoperand ?_, rfl⟩
        simpa [routeOperandForArg, hstruct] using ⟨field, hfield, rfl⟩

theorem neverDrifts_iff_of_struct [Nontrivial ν] {strct : GoStruct}
    (hlone : query.params.length = 1 → g.opts.queryParameterLimit = 0)
    (hstrct : IsStructArg g query strct built.arg)
    (hroute : resolveShardRoute g query built.arg ann none = .ok route)
    (hwrap : wrapShardParameters (ε := ε) built route g.opts = .ok out)
    (hmode : out.shardMode = .groupedMany → out.groupedMany = none)
    (hplain : Plain query) :
    NeverDrifts ν (parameterNames g query) out ↔ Consistent g query ann.operands := by
  obtain ⟨hoperands, hnodup⟩ := resolveShardRoute_ok hroute
  have hstruct : built.arg.structType = some strct := by rw [hstrct.arg_eq]
  have hparams : ∀ dbName, (routeOperandForArg built.arg dbName g.opts).isSome = true ↔
      dbName ∈ strct.fields.map GoField.dbName := by
    intro dbName
    simp [routeOperandForArg, hstruct]
  obtain ⟨route', wrapper, hbound, hreads⟩ := reads_struct hstruct hroute hwrap hmode
  have hnames : parameterNames g query = strct.fields.map GoField.dbName := by
    rw [parameterNames, if_neg (fun h => h.2 (hlone h.1)), hstrct.dbNames]
  have hnamed : namedColumns g query =
      strct.fields.map fun field => (field.name, field.dbName) := by
    rw [namedColumns, ← hstrct.names, ← hstrct.dbNames, List.zip_map']
  have hemit : built.arg.emit = true ↔
      query.params.length > g.opts.queryParameterLimit ∨ query.cmd = cmdCopyFrom := by
    rw [hstrct.arg_eq]
    simp
  have hconsistent : Consistent g query ann.operands ↔
      (query.params.length > g.opts.queryParameterLimit ∨ query.cmd = cmdCopyFrom →
        ∀ entry ∈ namedColumns g query, entry.2 ∈ ann.operands →
          GoMap.get? (namedColumns g query).reverse entry.1 = some entry.2) := by
    refine ⟨Consistent.fields, fun hfields => ⟨?_, hfields, ?_⟩⟩
    · intro hlimit param hparam
      exact absurd (hlone (by simp [hparam])) hlimit
    · intro hmany param hparam harray
      rw [hplain hmany param hparam] at harray
      cases harray
  rw [hreads.neverDrifts_iff, hbound, hnames, hconsistent, ← hemit, hnamed]
  · cases built.arg.emit with
    | true =>
        rw [readsKey_emitted_iff hoperands hnodup]
        · exact ⟨fun h _ => h, fun h => h rfl⟩
        · intro field hfield
          exact (hparams field.dbName).mpr (List.mem_map_of_mem hfield)
    | false =>
        exact ⟨fun _ h => absurd h Bool.false_ne_true, fun _ => readsKey_flattened hoperands⟩
  · rintro ⟨dbName, fieldName⟩ hentry _
    rw [hbound] at hentry
    rw [hnames]
    exact (hparams dbName).mp (routed_of_bound hoperands hentry).2.1

theorem reads_empty {wrapper : ShardArgWrapper} {callArgs : List CallArg}
    {route' : ShardRoute} (hempty : built.arg.isEmpty = true)
    (hnodup : (route.operands.map RouteOperand.fieldName).Nodup)
    (harg : wrapArg (ε := ε) built route g.opts = .ok (wrapper, callArgs))
    (hroute : out.route = some route') (hwrapper : out.shardArgs = some wrapper)
    (hcall : out.callArgs = .param (contextParam built).name :: callArgs)
    (hdeclared : declared route' wrapper = declared route wrapper)
    (hmode : out.shardMode = .groupedMany → out.groupedMany = none) :
    Reads out route' wrapper [] := by
  obtain ⟨hfields, rfl⟩ := wrapArg_empty hempty harg
  refine ⟨hroute, hwrapper, ?_, ?_, by simp, by simp⟩
  · intro ν arg
    simp [sentFor_eq_sent hmode, GeneratedQuery.sent, hcall, CallArg.sent]
  · rw [hdeclared]
    exact nodup_declared hnodup (by simp [hfields])

theorem lone_fields {param : Parameter} (hparam : query.params = [param])
    {entry : String × String} (hentry : entry ∈ namedColumns g query) :
    GoMap.get? (namedColumns g query).reverse entry.1 = some entry.2 := by
  simp only [namedColumns, hparam, fieldNames, columnNames, List.map_cons, List.map_nil,
    List.zipIdx_singleton, List.zip_cons_cons, List.zip_nil_right,
    List.mem_singleton] at hentry ⊢
  simp [hentry, GoMap.get?]

/-- A lone parameter has no other Go field to be confused with. -/
theorem consistent_iff_of_lone {param : Parameter} (hparam : query.params = [param])
    {operands : List String} :
    Consistent g query operands ↔
      (g.opts.queryParameterLimit ≠ 0 → param.column.name ∈ operands →
        escape (paramName param) ≠ "" ∨ g.goType param.column ≠ "") ∧
      (query.cmd = cmdMany → isOneDimensionalArray param.column = true →
        param.column.name ∈ operands → singular g param.column.name ∈ operands →
          singular g param.column.name = param.column.name ∨
            param.column.name ∈ resultColumns g query) := by
  constructor
  · intro h
    exact ⟨fun hlimit => h.lone hlimit param hparam, fun hmany => h.lookup hmany param hparam⟩
  · rintro ⟨hlone, hlookup⟩
    refine ⟨?_, ?_, ?_⟩
    · intro hlimit param' hparam'
      cases hparam.symm.trans hparam'
      exact hlone hlimit
    · intro _ entry hentry _
      exact lone_fields hparam hentry
    · intro hmany param' hparam'
      cases hparam.symm.trans hparam'
      exact hlookup hmany

/-- A lone parameter that is an operand is read from its field of the shard key. -/
theorem reads_scalar {wrapper : ShardArgWrapper} {callArgs : List CallArg}
    {route' : ShardRoute} (hempty : built.arg.isEmpty = false)
    (hstrct : built.arg.structType = none)
    (hoperands : List.Forall₂ (fun dbName operand =>
      resolveOperand g query built.arg none dbName = .ok operand) dbNames route.operands)
    (hnodup : (route.operands.map RouteOperand.fieldName).Nodup)
    (harg : wrapArg (ε := ε) built route g.opts = .ok (wrapper, callArgs))
    (hroute : out.route = some route') (hwrapper : out.shardArgs = some wrapper)
    (hcall : out.callArgs = .param (contextParam built).name :: callArgs)
    (hdeclared : declared route' wrapper = declared route wrapper)
    (hbound : route'.bound = route.bound)
    (hmode : out.shardMode = .groupedMany → out.groupedMany = none) :
    ∃ e, Reads out route' wrapper [e] ∧
      ∀ operand, routeOperandByDBName route built.arg.dbName = some operand →
        e = .shardKey operand.fieldName := by
  have hparam : (routeOperandForArg built.arg built.arg.dbName g.opts).isSome = true := by
    simp [routeOperandForArg, hstrct]
  rcases wrapArg_scalar hempty hstrct harg with
    ⟨operand, hoperand, hfields, rfl⟩ | ⟨hnone, hfields, rfl⟩
  · have hentry := bound_of_routed hoperands hoperand hparam
    refine ⟨.shardKey operand.fieldName, ⟨hroute, hwrapper, ?_, ?_, ?_, ?_⟩, ?_⟩
    · intro ν arg
      simp [sentFor_eq_sent hmode, GeneratedQuery.sent, hcall, CallArg.sent]
    · rw [hdeclared]
      exact nodup_declared hnodup (by simp [hfields])
    · rw [hdeclared, List.forall_mem_singleton]
      exact mem_declared_of_bound hentry
    · intro name hname
      cases List.mem_singleton.mp hname
      rw [hbound]
      exact List.mem_map_of_mem hentry
    · intro operand' hoperand'
      cases hoperand.symm.trans hoperand'
      rfl
  · refine ⟨.field (scalarField built.arg g.opts).name,
      ⟨hroute, hwrapper, ?_, ?_, ?_, ?_⟩, ?_⟩
    · intro ν arg
      simp [sentFor_eq_sent hmode, GeneratedQuery.sent, hcall, CallArg.sent]
    · rw [hdeclared]
      exact nodup_declared hnodup (by simp [hfields])
    · rw [hdeclared, List.forall_mem_singleton]
      simp [declared, hfields]
    · intro name hname
      cases List.mem_singleton.mp hname
    · intro operand hoperand
      rw [hnone] at hoperand
      cases hoperand

theorem neverDrifts_iff_of_scalar [Nontrivial ν] {param : Parameter}
    (hparam : query.params = [param]) (hlimit : g.opts.queryParameterLimit ≠ 0)
    (hscalar : built.arg =
      { name := escape (paramName param)
        dbName := param.column.name
        typ := g.goType param.column })
    (hroute : resolveShardRoute g query built.arg ann none = .ok route)
    (hwrap : wrapShardParameters (ε := ε) built route g.opts = .ok out)
    (hmode : out.shardMode = .groupedMany → out.groupedMany = none)
    (hplain : Plain query) :
    NeverDrifts ν (parameterNames g query) out ↔ Consistent g query ann.operands := by
  obtain ⟨hoperands, hnodup⟩ := resolveShardRoute_ok hroute
  obtain ⟨route', wrapper, callArgs, harg, hroute', hwrapper, hcall, hdeclared, hbound⟩ :=
    exists_bound_wrapper hwrap
  have hstrct : built.arg.structType = none := by rw [hscalar]
  have hdb : built.arg.dbName = param.column.name := by rw [hscalar]
  have hnames : parameterNames g query = [param.column.name] := by
    simp [parameterNames, hparam, hlimit]
  have hparams : ∀ dbName, (routeOperandForArg built.arg dbName g.opts).isSome = true ↔
      dbName = param.column.name := by
    intro dbName
    by_cases hname : dbName = param.column.name
    · simp [routeOperandForArg, hstrct, hdb, hname]
    · simp [routeOperandForArg, hstrct, hdb, hname, Ne.symm hname]
  have hnamed : ∀ entry ∈ route'.bound, entry.1 ≠ "" → entry.1 ∈ parameterNames g query := by
    rintro ⟨dbName, fieldName⟩ hentry _
    rw [hbound] at hentry
    rw [hnames, List.mem_singleton]
    exact (hparams dbName).mp (routed_of_bound hoperands hentry).2.1
  have hconsistent : Consistent g query ann.operands ↔
      (param.column.name ∈ ann.operands → built.arg.isEmpty = false) := by
    have hempty : built.arg.isEmpty = true ↔
        escape (paramName param) = "" ∧ g.goType param.column = "" := by
      rw [hscalar]
      simp [QueryValue.isEmpty, and_comm]
    rw [consistent_iff_of_lone hparam, ← Bool.not_eq_true, hempty, not_and_or]
    refine ⟨fun h => h.1 hlimit, fun h => ⟨fun _ => h, ?_⟩⟩
    intro hmany harray
    rw [hplain hmany param hparam] at harray
    cases harray
  rw [hconsistent]
  cases hempty : built.arg.isEmpty with
  | true =>
      -- sqlc leaves the parameter out, so nothing is sent for it.
      have hreads :=
        reads_empty hempty hnodup harg hroute' hwrapper hcall hdeclared hmode
      rw [hreads.neverDrifts_iff hnamed, hbound, hnames]
      constructor
      · intro hkey hmem
        rw [← operands_eq hoperands] at hmem
        obtain ⟨operand, hoperand, hname⟩ := List.mem_map.mp hmem
        have hfind := routeOperandByDBName_of_mem hoperands hoperand
        rw [hname] at hfind
        have hentry := bound_of_routed hoperands hfind ((hparams _).mpr rfl)
        have hexpr := hkey _ hentry 0 rfl
        cases hexpr
      · rintro hnot ⟨dbName, fieldName⟩ hentry i _
        obtain ⟨hmem, hsome, -⟩ := routed_of_bound hoperands hentry
        rw [(hparams dbName).mp hsome] at hmem
        cases hnot hmem
  | false =>
      obtain ⟨e, hreads, he⟩ := reads_scalar hempty hstrct hoperands hnodup harg hroute'
        hwrapper hcall hdeclared hbound hmode
      rw [hreads.neverDrifts_iff hnamed, hbound, hnames]
      refine ⟨fun _ _ => rfl, ?_⟩
      rintro - ⟨dbName, fieldName⟩ hentry i hname
      obtain ⟨-, hsome, operand, hfind, rfl⟩ := routed_of_bound hoperands hentry
      rw [(hparams dbName).mp hsome, ← hdb] at hfind
      rw [he operand hfind]
      cases i with
      | zero => rfl
      | succ i => cases hname

theorem neverDrifts_of_empty [Nontrivial ν] (hparams : query.params = [])
    (hempty : built.arg = {})
    (hroute : resolveShardRoute g query built.arg ann none = .ok route)
    (hwrap : wrapShardParameters (ε := ε) built route g.opts = .ok out)
    (hmode : out.shardMode = .groupedMany → out.groupedMany = none) :
    NeverDrifts ν (parameterNames g query) out ∧ Consistent g query ann.operands := by
  obtain ⟨hoperands, hnodup⟩ := resolveShardRoute_ok hroute
  obtain ⟨route', wrapper, callArgs, harg, hroute', hwrapper, hcall, hdeclared, hbound⟩ :=
    exists_bound_wrapper hwrap
  have hnames : parameterNames g query = [] := by simp [parameterNames, hparams, columnNames]
  have hreads := reads_empty (by rw [hempty]; rfl) hnodup harg hroute' hwrapper hcall
    hdeclared hmode
  constructor
  · apply (hreads.neverDrifts_iff ?_).mpr
    · rintro entry - i hname
      rw [hnames] at hname
      cases hname
    · rintro ⟨dbName, fieldName⟩ hentry hne
      rw [hbound] at hentry
      obtain ⟨-, hsome, -⟩ := routed_of_bound hoperands hentry
      rw [hempty] at hsome
      simp [routeOperandForArg, Ne.symm hne] at hsome
  · refine ⟨?_, ?_, ?_⟩
    · intro _ param hparam
      rw [hparams] at hparam
      cases hparam
    · simp [namedColumns, hparams, columnNames]
    · intro _ param hparam
      rw [hparams] at hparam
      cases hparam

end PgMesh.Plugin
