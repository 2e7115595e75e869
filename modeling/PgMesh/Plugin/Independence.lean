import PgMesh.Plugin.Supply

/-!
# Independent SQL parameters

`wrapShardParameters` decides by the column name whether a SQL parameter is read
from the shard key.  sqlc gives two parameters of one column different fields but
the same column name, so if the column is an operand of the route, both of them
are read from the one field of the shard key.
-/

namespace PgMesh.Plugin

open PgMesh.Foundation

variable {ν ε : Type}

/-! ## Structures -/

section Struct

variable {route : ShardRoute} {fields : List GoField}

theorem wrapTarget_of_operand {field : GoField} {operand : RouteOperand}
    (h : routeOperandByDBName route field.dbName = some operand) :
    wrapTarget route field = .shardKey operand.fieldName := by
  unfold wrapTarget
  rw [h]

theorem wrapTarget_of_none {field : GoField}
    (h : routeOperandByDBName route field.dbName = none) :
    wrapTarget route field = .field field.name := by
  unfold wrapTarget
  rw [h]

theorem routeOperandByDBName_some {dbName : String} {operand : RouteOperand}
    (h : routeOperandByDBName route dbName = some operand) :
    operand ∈ route.operands ∧ operand.dbName = dbName :=
  ⟨List.mem_of_find?_eq_some h, by simpa using List.find?_some h⟩

theorem routeOperandByDBName_none {dbName : String} :
    routeOperandByDBName route dbName = none ↔
      dbName ∉ route.operands.map RouteOperand.dbName := by
  simp [routeOperandByDBName]

/-- Two fields are read from one place only if they have one routed column. -/
theorem nodup_wrapTarget_iff
    (hoperands : (route.operands.map RouteOperand.fieldName).Nodup)
    (hown : ((ownFields route fields).map GoField.name).Nodup) :
    (fields.map (wrapTarget route)).Nodup ↔
      (fields.map GoField.dbName).Pairwise fun a b =>
        a = b → a ∉ route.operands.map RouteOperand.dbName := by
  have hnames : fields.Pairwise fun f f' =>
      routeOperandByDBName route f.dbName = none →
        routeOperandByDBName route f'.dbName = none → f.name ≠ f'.name := by
    rw [List.Nodup, List.pairwise_map, ownFields, List.pairwise_filter] at hown
    simpa using hown
  rw [List.Nodup, List.pairwise_map, List.pairwise_map]
  constructor
  · intro htargets
    refine htargets.imp ?_
    intro f f' hne hsame
    rw [← routeOperandByDBName_none]
    cases hoperand : routeOperandByDBName route f.dbName with
    | none => rfl
    | some operand =>
        exfalso
        apply hne
        rw [wrapTarget_of_operand hoperand, wrapTarget_of_operand (hsame ▸ hoperand)]
  · intro hcolumns
    refine (hcolumns.and hnames).imp ?_
    rintro f f' ⟨hcolumn, hname⟩ htarget
    cases hf : routeOperandByDBName route f.dbName with
    | none =>
        rw [wrapTarget_of_none hf] at htarget
        cases hf' : routeOperandByDBName route f'.dbName with
        | none =>
            rw [wrapTarget_of_none hf'] at htarget
            exact hname hf hf' (ArgExpr.field.inj htarget)
        | some operand' =>
            rw [wrapTarget_of_operand hf'] at htarget
            cases htarget
    | some operand =>
        rw [wrapTarget_of_operand hf] at htarget
        obtain ⟨hmem, hdb⟩ := routeOperandByDBName_some hf
        cases hf' : routeOperandByDBName route f'.dbName with
        | none =>
            rw [wrapTarget_of_none hf'] at htarget
            cases htarget
        | some operand' =>
            rw [wrapTarget_of_operand hf'] at htarget
            obtain ⟨hmem', hdb'⟩ := routeOperandByDBName_some hf'
            have hsame : operand = operand' :=
              List.inj_on_of_nodup_map hoperands hmem hmem'
                (ArgExpr.shardKey.inj htarget)
            subst hsame
            apply hcolumn (hdb.symm.trans hdb')
            rw [← hdb]
            exact List.mem_map_of_mem hmem

/-- The fields of the wrapper and of its shard key are distinct. -/
theorem nodup_declared {wrapper : ShardArgWrapper}
    (hoperands : (route.operands.map RouteOperand.fieldName).Nodup)
    (hown : (wrapper.fields.map GoField.name).Nodup) :
    ((declared route wrapper).map Prod.fst).Nodup := by
  have hkeys : (declared route wrapper).map Prod.fst =
      (route.operands.map RouteOperand.fieldName).map ArgExpr.shardKey ++
        (wrapper.fields.map GoField.name).map ArgExpr.field := by
    simp [declared, Function.comp_def]
  rw [hkeys]
  apply List.Nodup.append
  · exact hoperands.map fun _ _ => ArgExpr.shardKey.inj
  · exact hown.map fun _ _ => ArgExpr.field.inj
  · intro e hkey hfield
    obtain ⟨name, -, rfl⟩ := List.mem_map.mp hkey
    obtain ⟨name', -, hname'⟩ := List.mem_map.mp hfield
    cases hname'

/-- The type of a routed field is that of its operand. -/
theorem typed_of_nodup [Unicode] {g : Generator ε} {query : Query} {arg : QueryValue}
    {strct : GoStruct} {wrapper : ShardArgWrapper} {dbNames : List String}
    (hstrct : arg.structType = some strct)
    (hroute : List.Forall₂ (fun dbName operand =>
      resolveOperand g query arg none dbName = .ok operand) dbNames route.operands)
    (hwrapper : wrapper.fields = ownFields route strct.fields)
    (hnodup : (strct.fields.map (wrapTarget route)).Nodup) {field : GoField}
    (hfield : field ∈ strct.fields) :
    (wrapTarget route field, field.typ) ∈ declared route wrapper := by
  unfold declared
  cases hoperand : routeOperandByDBName route field.dbName with
  | none =>
      rw [wrapTarget_of_none hoperand]
      apply List.mem_append_right
      rw [hwrapper]
      refine List.mem_map.mpr ⟨field, ?_, rfl⟩
      simp [ownFields, hfield, hoperand]
  | some operand =>
      rw [wrapTarget_of_operand hoperand]
      apply List.mem_append_left
      obtain ⟨hmem, hdb⟩ := routeOperandByDBName_some hoperand
      obtain ⟨dbName, -, hresolved⟩ := exists_of_mem_right hroute hmem
      have hname := resolveOperand_dbName hresolved
      -- The first field with this column name is the only one.
      have hfirst : strct.fields.find? (·.dbName == dbName) = some field := by
        have hsome : (strct.fields.find? (·.dbName == dbName)).isSome := by
          rw [List.find?_isSome]
          exact ⟨field, hfield, by simp [← hname, hdb]⟩
        obtain ⟨first, hfirst⟩ := Option.isSome_iff_exists.mp hsome
        have hsame : first.dbName = field.dbName := by
          have hfound : first.dbName = dbName := by simpa using List.find?_some hfirst
          rw [hfound, ← hname, hdb]
        have htarget : wrapTarget route first = wrapTarget route field := by
          rw [wrapTarget_of_operand hoperand, wrapTarget_of_operand (hsame ▸ hoperand)]
        rw [hfirst, List.inj_on_of_nodup_map hnodup
          (List.mem_of_find?_eq_some hfirst) hfield htarget]
      refine List.mem_map.mpr ⟨operand, hmem, ?_⟩
      rw [resolveOperand_typ_field hstrct hresolved hfirst]

/-! An emitted structure is filled through a map by field name. -/

theorem expressionMap_get? {entries : List (String × ArgExpr)} {name : String}
    {e : ArgExpr} (hnodup : (entries.map Prod.fst).Nodup) (h : (name, e) ∈ entries) :
    GoMap.get? (expressionMap entries) name = some e := by
  unfold expressionMap
  rw [GoMap.get?_foldl_set, GoMap.get?_nil, Option.or_none]
  apply GoMap.get?_of_mem
  · rw [List.map_reverse, List.nodup_reverse]
    exact hnodup
  · exact List.mem_reverse.mpr h

/-- The expression of a field in the structure that `sqlcParams()` returns. -/
def emittedTarget (route : ShardRoute) (fields : List GoField) (name : String) :
    ArgExpr :=
  (GoMap.get? (expressionMap
    (fields.map fun field => (field.name, wrapTarget route field))) name).getD
      (.field name)

theorem expressionMap_eq_some {field : GoField} (h : field ∈ fields) :
    GoMap.get? (expressionMap
      (fields.map fun field => (field.name, wrapTarget route field))) field.name =
        some (emittedTarget route fields field.name) := by
  have hkey : field.name ∈ (fields.map fun field =>
      (field.name, wrapTarget route field)).reverse.map Prod.fst := by
    simpa using ⟨field, h, rfl⟩
  have hsome := GoMap.isSome_get?.mpr hkey
  obtain ⟨e, he⟩ := Option.isSome_iff_exists.mp hsome
  unfold emittedTarget expressionMap
  rw [GoMap.get?_foldl_set, he]
  rfl

theorem map_emittedTarget (hnames : (fields.map GoField.name).Nodup) :
    fields.map (fun field => emittedTarget route fields field.name) =
      fields.map (wrapTarget route) := by
  apply List.map_congr_left
  intro field hfield
  unfold emittedTarget
  rw [expressionMap_get? (by simpa [Function.comp_def] using hnames)
    (List.mem_map.mpr ⟨field, hfield, rfl⟩)]
  rfl

/-- The expressions of the SQL parameters, in an emitted or a flattened structure. -/
def sentTargets (emit : Bool) (route : ShardRoute) (fields : List GoField) :
    List ArgExpr :=
  if emit then fields.map fun field => emittedTarget route fields field.name
  else fields.map (wrapTarget route)

theorem length_sentTargets (emit : Bool) :
    (sentTargets emit route fields).length = fields.length := by
  cases emit <;> simp [sentTargets]

theorem sentTargets_eq {emit : Bool}
    (h : emit = true → (fields.map GoField.name).Nodup) :
    sentTargets emit route fields = fields.map (wrapTarget route) := by
  cases emit with
  | true => exact map_emittedTarget (h rfl)
  | false => rfl

/-- Fields of one name are filled alike, so emitted names must be distinct. -/
theorem names_nodup_of_sentTargets {emit : Bool}
    (h : (sentTargets emit route fields).Nodup) (hemit : emit = true) :
    (fields.map GoField.name).Nodup := by
  subst hemit
  apply List.Nodup.of_map (emittedTarget route fields)
  rw [List.map_map]
  exact h

end Struct

/-! ## Routed queries -/

section Routed

variable [Unicode]

def sqlTypes (g : Generator ε) (query : Query) : List String :=
  query.params.map fun param => g.goType param.column

/--
The parameters of a query can be told apart: a lone parameter has a Go name or a
Go type, no two parameters have the same column name if it is an operand of the
route, and no two parameters of an emitted structure have the same field name.
-/
structure Distinguished (g : Generator ε) (query : Query) (operands : List String) :
    Prop where
  lone : g.opts.queryParameterLimit ≠ 0 → ∀ param, query.params = [param] →
    escape (paramName param) ≠ "" ∨ g.goType param.column ≠ ""
  columns : (columnNames (query.params.map Parameter.column)).Pairwise fun a b =>
    a = b → a ∉ operands
  names : query.params.length > g.opts.queryParameterLimit ∨ query.cmd = cmdCopyFrom →
    (fieldNames g.opts [] (query.params.map Parameter.column).zipIdx).Nodup

variable {g : Generator ε} {query : Query} {built out : GeneratedQuery}
  {ann : RouteAnnotation} {route : ShardRoute}

omit [Unicode] in
theorem declared_congr {route' : ShardRoute} (wrapper : ShardArgWrapper)
    (h : route'.operands.map (fun operand => (operand.fieldName, operand.typ)) =
      route.operands.map fun operand => (operand.fieldName, operand.typ)) :
    declared route' wrapper = declared route wrapper := by
  have hkey : ∀ r : ShardRoute,
      (r.operands.map fun operand => (ArgExpr.shardKey operand.fieldName, operand.typ)) =
        (r.operands.map fun operand => (operand.fieldName, operand.typ)).map
          fun entry => (ArgExpr.shardKey entry.1, entry.2) := by
    intro r
    simp
  unfold declared
  rw [hkey, hkey, h]

/-- The wrapper of a query; its route declares the fields of the resolved one. -/
theorem exists_wrapper
    (hwrap : wrapShardParameters (ε := ε) built route g.opts = .ok out) :
    ∃ route' wrapper callArgs,
      wrapArg (ε := ε) built route g.opts = .ok (wrapper, callArgs) ∧
      out.route = some route' ∧ out.shardArgs = some wrapper ∧
      out.callArgs = .param (contextParam built).name :: callArgs ∧
      declared route' wrapper = declared route wrapper := by
  obtain ⟨wrapper, callArgs, harg, hwrapper, hcall, -, operands', hroute', hsame⟩ :=
    wrapShardParameters_ok hwrap
  exact ⟨_, wrapper, callArgs, harg, hroute', hwrapper, hcall,
    declared_congr wrapper hsame⟩

theorem operands_eq {arg : QueryValue} {dbNames : List String}
    {operands : List RouteOperand}
    (h : List.Forall₂ (fun dbName operand =>
      resolveOperand g query arg none dbName = .ok operand) dbNames operands) :
    operands.map RouteOperand.dbName = dbNames := by
  induction h with
  | nil => rfl
  | cons hhead htail ih => rw [List.map_cons, ih, resolveOperand_dbName hhead]

theorem sendsFrom_struct {strct : GoStruct} {wrapper : ShardArgWrapper}
    {callArgs : List CallArg} {route' : ShardRoute}
    (hstrct : built.arg.structType = some strct)
    (harg : wrapArg (ε := ε) built route g.opts = .ok (wrapper, callArgs))
    (hroute : out.route = some route') (hwrapper : out.shardArgs = some wrapper)
    (hcall : out.callArgs = .param (contextParam built).name :: callArgs) :
    SendsFrom out route' wrapper (sentTargets built.arg.emit route strct.fields) := by
  obtain ⟨-, -, hshape⟩ := wrapArg_struct hstrct harg
  refine ⟨hroute, hwrapper, ?_⟩
  intro ν arg
  rw [GeneratedQuery.sent, hcall]
  cases hemit : built.arg.emit with
  | true =>
      rw [hemit, if_pos rfl] at hshape
      obtain ⟨hsqlc, rfl, hexpressions⟩ := hshape
      simp only [List.flatMap_cons, List.flatMap_nil, CallArg.sent,
        ShardArgWrapper.sqlcParams, hsqlc, hstrct, hexpressions, sentTargets, if_true,
        List.nil_append, List.append_nil, List.map_map]
      apply List.map_congr_left
      intro field hfield
      simp [expressionMap_eq_some hfield]
  | false =>
      rw [hemit, if_neg Bool.false_ne_true] at hshape
      subst hshape
      simp [CallArg.sent, sentTargets, List.flatMap_map, ← List.map_eq_flatMap]

theorem suppliable_iff_of_struct [Nontrivial ν] {strct : GoStruct}
    (hlone : query.params.length = 1 → g.opts.queryParameterLimit = 0)
    (hstrct : IsStructArg g query strct built.arg)
    (hroute : resolveShardRoute g query built.arg ann none = .ok route)
    (hwrap : wrapShardParameters (ε := ε) built route g.opts = .ok out) :
    Suppliable ν (sqlTypes g query) out ↔
      Distinguished g query ann.operands := by
  obtain ⟨hoperands, hnodup⟩ := resolveShardRoute_ok hroute
  obtain ⟨route', wrapper, callArgs, harg, hroute', hwrapper, hcall, hdeclared⟩ :=
    exists_wrapper hwrap
  have hstruct : built.arg.structType = some strct := by rw [hstrct.arg_eq]
  obtain ⟨hfields, hown, -⟩ := wrapArg_struct hstruct harg
  have hsends := sendsFrom_struct hstruct harg hroute' hwrapper hcall
  have hcolumns : (strct.fields.map (wrapTarget route)).Nodup ↔
      (columnNames (query.params.map Parameter.column)).Pairwise fun a b =>
        a = b → a ∉ ann.operands := by
    rw [nodup_wrapTarget_iff hnodup hown, operands_eq hoperands, hstrct.dbNames]
  have hemit : built.arg.emit = true ↔
      query.params.length > g.opts.queryParameterLimit ∨ query.cmd = cmdCopyFrom := by
    rw [hstrct.arg_eq]
    simp
  have htypes : sqlTypes g query = strct.fields.map GoField.typ := hstrct.types.symm
  rw [hsends.suppliable_iff]
  · constructor
    · intro htargets
      have hnames := names_nodup_of_sentTargets htargets
      rw [sentTargets_eq hnames] at htargets
      refine ⟨?_, hcolumns.mp htargets, ?_⟩
      · intro hlimit param hparam
        exact absurd (hlone (by simp [hparam])) hlimit
      · intro hemitted
        rw [← hstrct.names]
        exact hnames (hemit.mpr hemitted)
    · rintro ⟨-, hcols, hnames⟩
      rw [sentTargets_eq]
      · exact hcolumns.mpr hcols
      · intro hemitted
        rw [hstrct.names]
        exact hnames (hemit.mp hemitted)
  · rw [hdeclared]
    exact nodup_declared hnodup (by rw [hfields]; exact hown)
  · rw [length_sentTargets, htypes, List.length_map]
  · intro htargets entry hentry
    have hnames := names_nodup_of_sentTargets htargets
    rw [sentTargets_eq hnames] at htargets hentry
    rw [htypes, List.zip_map'] at hentry
    obtain ⟨field, hfield, rfl⟩ := List.mem_map.mp hentry
    rw [hdeclared]
    exact typed_of_nodup hstruct hoperands hfields htargets hfield

/-- A lone parameter is read from a field of its own. -/
theorem sendsFrom_scalar {wrapper : ShardArgWrapper} {callArgs : List CallArg}
    {route' : ShardRoute} {dbNames : List String}
    (hempty : built.arg.isEmpty = false) (hstrct : built.arg.structType = none)
    (hoperands : List.Forall₂ (fun dbName operand =>
      resolveOperand g query built.arg none dbName = .ok operand)
        dbNames route.operands)
    (harg : wrapArg (ε := ε) built route g.opts = .ok (wrapper, callArgs))
    (hroute : out.route = some route') (hwrapper : out.shardArgs = some wrapper)
    (hcall : out.callArgs = .param (contextParam built).name :: callArgs) :
    ∃ e, SendsFrom out route' wrapper [e] ∧
      (wrapper.fields.map GoField.name).Nodup ∧
      (e, built.arg.typ) ∈ declared route wrapper := by
  rcases wrapArg_scalar hempty hstrct harg with
    ⟨operand, hoperand, hfields, rfl⟩ | ⟨-, hfields, rfl⟩
  · obtain ⟨hmem, hdb⟩ := routeOperandByDBName_some hoperand
    obtain ⟨dbName, -, hresolved⟩ := exists_of_mem_right hoperands hmem
    have hname : dbName = built.arg.dbName := by
      rw [← resolveOperand_dbName hresolved, hdb]
    subst hname
    refine ⟨.shardKey operand.fieldName, ⟨hroute, hwrapper, ?_⟩, by simp [hfields], ?_⟩
    · intro ν arg
      simp [GeneratedQuery.sent, hcall, CallArg.sent]
    · apply List.mem_append_left
      refine List.mem_map.mpr ⟨operand, hmem, ?_⟩
      rw [resolveOperand_typ_scalar hstrct hresolved]
  · refine ⟨.field (scalarField built.arg g.opts).name, ⟨hroute, hwrapper, ?_⟩,
      by simp [hfields], ?_⟩
    · intro ν arg
      simp [GeneratedQuery.sent, hcall, CallArg.sent]
    · apply List.mem_append_right
      have htyp : (scalarField built.arg g.opts).typ = built.arg.typ := by
        unfold scalarField QueryValue.defineType
        simp only [hstrct]
        split <;> simp
      rw [hfields, ← htyp]
      exact List.mem_map.mpr ⟨_, List.mem_singleton.mpr rfl, rfl⟩

theorem suppliable_iff_of_scalar [Nontrivial ν] {param : Parameter}
    (hparam : query.params = [param])
    (hlimit : g.opts.queryParameterLimit ≠ 0)
    (hscalar : built.arg =
      { name := escape (paramName param)
        dbName := param.column.name
        typ := g.goType param.column })
    (hroute : resolveShardRoute g query built.arg ann none = .ok route)
    (hwrap : wrapShardParameters (ε := ε) built route g.opts = .ok out) :
    Suppliable ν (sqlTypes g query) out ↔
      Distinguished g query ann.operands := by
  obtain ⟨hoperands, hnodup⟩ := resolveShardRoute_ok hroute
  obtain ⟨route', wrapper, callArgs, harg, hroute', hwrapper, hcall, hdeclared⟩ :=
    exists_wrapper hwrap
  have hstrct : built.arg.structType = none := by rw [hscalar]
  have hempty : built.arg.isEmpty = true ↔
      escape (paramName param) = "" ∧ g.goType param.column = "" := by
    rw [hscalar]
    simp [QueryValue.isEmpty, and_comm]
  have hrest : (escape (paramName param) ≠ "" ∨ g.goType param.column ≠ "") →
      Distinguished g query ann.operands := by
    intro hlone
    refine ⟨?_, ?_, ?_⟩
    · intro _ param' hparam'
      rw [hparam] at hparam'
      cases hparam'
      exact hlone
    · simp [hparam, columnNames]
    · simp [hparam, fieldNames]
  cases hcase : built.arg.isEmpty with
  | true =>
      obtain ⟨hname, htyp⟩ := hempty.mp hcase
      obtain ⟨-, rfl⟩ := wrapArg_empty hcase harg
      constructor
      · rintro ⟨route', wrapper', -, -, hall⟩
        obtain ⟨v⟩ : Nonempty ν := inferInstance
        obtain ⟨arg, -, hsent⟩ :=
          hall [⟨g.goType param.column, v⟩] (by simp [sqlTypes, hparam])
        simp [GeneratedQuery.sent, hcall, CallArg.sent] at hsent
      · rintro ⟨hlone, -, -⟩
        rcases hlone hlimit param hparam with hne | hne
        · exact absurd hname hne
        · exact absurd htyp hne
  | false =>
      obtain ⟨e, hsends, hown, htyped⟩ := sendsFrom_scalar hcase hstrct hoperands harg
        hroute' hwrapper hcall
      have hlone : escape (paramName param) ≠ "" ∨ g.goType param.column ≠ "" := by
        rw [← not_and_or, ← hempty, hcase]
        simp
      rw [hsends.suppliable_iff]
      · exact ⟨fun _ => hrest hlone, fun _ => List.nodup_singleton e⟩
      · rw [hdeclared]
        exact nodup_declared hnodup hown
      · simp [sqlTypes, hparam]
      · intro _ entry hentry
        have hentry : entry = (e, built.arg.typ) := by
          simpa [sqlTypes, hparam, hscalar] using hentry
        rw [hentry, hdeclared]
        exact htyped

theorem suppliable_iff_of_empty [Nontrivial ν] (hparams : query.params = [])
    (hempty : built.arg = {})
    (hroute : resolveShardRoute g query built.arg ann none = .ok route)
    (hwrap : wrapShardParameters (ε := ε) built route g.opts = .ok out) :
    Suppliable ν (sqlTypes g query) out ↔
      Distinguished g query ann.operands := by
  obtain ⟨-, hnodup⟩ := resolveShardRoute_ok hroute
  obtain ⟨route', wrapper, callArgs, harg, hroute', hwrapper, hcall, hdeclared⟩ :=
    exists_wrapper hwrap
  obtain ⟨hfields, rfl⟩ := wrapArg_empty (by rw [hempty]; rfl) harg
  have hsends : SendsFrom out route' wrapper [] := by
    refine ⟨hroute', hwrapper, ?_⟩
    intro ν arg
    simp [GeneratedQuery.sent, hcall, CallArg.sent]
  have hdistinguished : Distinguished g query ann.operands := by
    refine ⟨?_, ?_, ?_⟩
    · intro _ param hparam
      rw [hparams] at hparam
      cases hparam
    · simp [hparams, columnNames]
    · simp [hparams, fieldNames]
  rw [hsends.suppliable_iff]
  · exact ⟨fun _ => hdistinguished, fun _ => List.nodup_nil⟩
  · rw [hdeclared]
    exact nodup_declared hnodup (by simp [hfields])
  · simp [sqlTypes, hparams]
  · simp

/-- All shapes together. -/
theorem suppliable_iff_distinguished [Nontrivial ν]
    (harg : buildQueryArg g query = .ok built.arg)
    (hroute : resolveShardRoute g query built.arg ann none = .ok route)
    (hwrap : wrapShardParameters (ε := ε) built route g.opts = .ok out) :
    Suppliable ν (sqlTypes g query) out ↔
      Distinguished g query ann.operands := by
  rcases buildQueryArg_cases harg with ⟨hparams, hempty⟩ |
    ⟨param, hparam, hlimit, hscalar⟩ | ⟨strct, hlone, hstrct⟩
  · exact suppliable_iff_of_empty hparams hempty hroute hwrap
  · exact suppliable_iff_of_scalar hparam hlimit hscalar hroute hwrap
  · exact suppliable_iff_of_struct hlone hstrct hroute hwrap

/--
Of the queries that the generator accepts, a routed one with a method that is not
grouped by items lets its caller choose all SQL parameters independently exactly
when its parameters can be told apart.
-/
theorem parameters_suppliable_iff [Nontrivial ν] {queries : List Query}
    {outs : List GeneratedQuery} (haccepted : buildQueries g queries = .ok outs)
    (hout : out ∈ outs) (hroute : out.route ≠ none)
    (hmode : out.shardMode ≠ .groupedMany) :
    ∃ query ∈ queries, ∃ built kind ann store,
      buildQuery g query = .ok built ∧ wrapQuery (ε := ε) built g.opts = .ok out ∧
      g.classifyQuery query = .ok (kind, some ann, store) ∧
      (Suppliable ν (sqlTypes g query) out ↔
        Distinguished g query ann.operands) := by
  obtain ⟨query, hquery, built, hbuilt, hwrapped⟩ :=
    exists_of_mem_buildQueries haccepted hout
  obtain ⟨route, hsome, hrouted, hwrap⟩ := wrapQuery_routed hwrapped hroute hmode
  obtain ⟨harg, kind, ann, store, hclassify, hresolved⟩ :=
    buildQuery_routed hbuilt hsome hrouted
  exact ⟨query, hquery, built, kind, ann, store, hbuilt, hwrapped, hclassify,
    suppliable_iff_distinguished harg hresolved hwrap⟩

end Routed

/-! ## Accounts of a tenant -/

local instance : Unicode := Unicode.ascii

def tenantKey : RouteAnnotation := ⟨"tenantKey", ["tenant_id"]⟩

/-- A generator with the default options, all columns of type `bigint`, and queries
that are routed by their tenant. -/
def tenantGenerator : Generator Unit where
  opts :=
    { queryParameterLimit := 1
      rename := []
      emitParamsStructPointers := false
      emitResultStructPointers := false
      internalImportPath := ""
      internalImportAlias := "" }
  structs := []
  defaultSchema := "public"
  goType _ := "int64"
  classifyQuery _ := .ok (.write, some tenantKey, "Accounts")
  queryRelationIdentifiers _ := []
  inflectionSingular := id

/-- `DELETE FROM accounts WHERE tenant_id = $1 AND id = $2` -/
def deleteAccount : Query where
  name := "DeleteAccount"
  cmd := ":exec"
  params := [⟨1, { name := "tenant_id" }⟩, ⟨2, { name := "id" }⟩]

/-- `UPDATE accounts SET tenant_id = $1 WHERE tenant_id = $2` -/
def moveAccounts : Query where
  name := "MoveAccounts"
  cmd := ":exec"
  params := [⟨1, { name := "tenant_id" }⟩, ⟨2, { name := "tenant_id" }⟩]

theorem parameters_suppliable_iff_delete :
    ∃ out, buildQueries tenantGenerator [deleteAccount] = .ok [out] ∧
      Suppliable Bool ["int64", "int64"] out := by
  obtain ⟨out, haccepted, hroute, hmode⟩ : ∃ out,
      buildQueries tenantGenerator [deleteAccount] = .ok [out] ∧
        out.route ≠ none ∧ out.shardMode ≠ .groupedMany :=
    ⟨_, rfl, Option.some_ne_none _, by decide⟩
  obtain ⟨query, hquery, built, kind, ann, store, -, -, hclassify, hiff⟩ :=
    parameters_suppliable_iff (ν := Bool) haccepted (List.mem_singleton.mpr rfl)
      hroute hmode
  cases List.mem_singleton.mp hquery
  cases hclassify
  refine ⟨out, haccepted, hiff.mpr ⟨?_, by decide, by decide⟩⟩
  intro _ param hparam
  exact absurd (congrArg List.length hparam) (by simp [deleteAccount])

/-- The new and the old tenant are both read from the shard key. -/
theorem moved_accounts_share_shard_key :
    ∃ out, buildQueries tenantGenerator [moveAccounts] = .ok [out] ∧
      out.route ≠ none ∧ out.shardMode ≠ .groupedMany ∧
      ¬ Suppliable Bool ["int64", "int64"] out := by
  refine ⟨_, rfl, Option.some_ne_none _, by decide, ?_⟩
  rintro ⟨route, wrapper, -, hwrapper, hall⟩
  obtain ⟨arg, -, hsent⟩ := hall [⟨"int64", true⟩, ⟨"int64", false⟩] rfl
  cases hwrapper
  have hboth : [some (arg.shardKey "TenantID"), some (arg.shardKey "TenantID")] =
      [some ⟨"int64", true⟩, some ⟨"int64", false⟩] := hsent
  simp only [List.cons.injEq, Option.some.injEq, and_true] at hboth
  rw [hboth.1] at hboth
  cases hboth.2

end PgMesh.Plugin
