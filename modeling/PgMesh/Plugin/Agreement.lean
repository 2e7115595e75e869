import PgMesh.Plugin.RoutedKeys

/-!
# Routing keys never drift from SQL

In a list lookup the list parameter may be named in two ways, by its own name and
by the key that the result shows.  An annotation with both names gives the shard
key two fields for one parameter, and only the first one is sent.
-/

namespace PgMesh.Plugin

open PgMesh.Foundation

variable {ν ε : Type}

section Routed

variable [Unicode] {g : Generator ε} {query : Query} {built out : GeneratedQuery}
  {ann : RouteAnnotation} {route resolved : ShardRoute} {arg : QueryValue}
  {spec : GroupedManySpec} {dbNames : List String}

theorem list_parameter {param : Parameter} (harg : buildQueryArg g query = .ok arg)
    (hparam : query.params = [param]) (hname : param.column.name ≠ "") :
    parameterNames g query = [param.column.name] ∧
      ∀ name, (routeOperandForArg arg name g.opts).isSome = true ↔
        name = param.column.name := by
  rcases buildQueryArg_cases harg with ⟨hnone, -⟩ | ⟨param', hparam', hlimit, rfl⟩ |
    ⟨strct, hlone, hstrct⟩
  · rw [hparam] at hnone
    cases hnone
  · rw [hparam] at hparam'
    cases hparam'
    refine ⟨by simp [parameterNames, hparam, hlimit], fun name => ?_⟩
    by_cases hsame : name = param.column.name
    · simp [routeOperandForArg, hsame]
    · simp [routeOperandForArg, hsame, Ne.symm hsame]
  · have hcolumns : columnNames (query.params.map Parameter.column) =
        [param.column.name] := by
      simp [hparam, columnNames, columnName, hname]
    refine ⟨?_, fun name => ?_⟩
    · rw [parameterNames, if_neg (fun h => h.2 (hlone h.1)), hcolumns]
    · have hdbNames := hstrct.dbNames.trans hcolumns
      have hstruct : arg.structType = some strct := by rw [hstrct.arg_eq]
      have hfound : (routeOperandForArg arg name g.opts).isSome = true ↔
          name ∈ strct.fields.map GoField.dbName := by
        simp [routeOperandForArg, hstruct]
      rw [hfound, hdbNames, List.mem_singleton]

/-- An operand of the route, up to its type, is the one resolved for its name. -/
def ResolvesTo (g : Generator ε) (query : Query) (arg : QueryValue)
    (spec : GroupedManySpec) (dbName : String) (operand : RouteOperand) : Prop :=
  ∃ resolved, resolveOperand g query arg (some spec) dbName = .ok resolved ∧
    operand.dbName = resolved.dbName ∧ operand.fieldName = resolved.fieldName ∧
      operand.external = resolved.external

theorem scalarize_resolvesTo
    (h : List.Forall₂ (fun dbName operand =>
      resolveOperand g query arg (some spec) dbName = .ok operand)
        dbNames resolved.operands) :
    List.Forall₂ (ResolvesTo g query arg spec) dbNames
      (scalarizeGroupedManyRoute resolved spec).operands := by
  unfold scalarizeGroupedManyRoute
  rw [List.forall₂_map_right_iff]
  refine h.imp fun dbName operand hoperand => ⟨operand, hoperand, ?_⟩
  split <;> exact ⟨rfl, rfl, rfl⟩

omit [Unicode] in
theorem scalarize_fieldNames :
    (scalarizeGroupedManyRoute resolved spec).operands.map RouteOperand.fieldName =
      resolved.operands.map RouteOperand.fieldName := by
  unfold scalarizeGroupedManyRoute
  rw [List.map_map]
  apply List.map_congr_left
  intro operand _
  simp only [Function.comp]
  split <;> rfl

/-- The operands of a list lookup: those for the list parameter, and external ones. -/
structure IsLookup (g : Generator ε) (query : Query) (arg : QueryValue)
    (spec : GroupedManySpec) (dbNames : List String) (route : ShardRoute) : Prop where
  operands : List.Forall₂ (ResolvesTo g query arg spec) dbNames route.operands
  nodup : (route.operands.map RouteOperand.fieldName).Nodup
  parameter : ∀ name, (routeOperandForArg arg name g.opts).isSome = true ↔
    name = spec.parameterDBName

section Lookup

variable (h : IsLookup g query arg spec dbNames route)

include h

theorem IsLookup.resolvesTo_cases {dbName : String} {operand : RouteOperand}
    (hoperand : ResolvesTo g query arg spec dbName operand) :
    (operand.external = false ∧ operand.dbName = spec.parameterDBName ∧
      (dbName = spec.parameterDBName ∨ dbName = spec.lookupDBName)) ∨
    (operand.external = true ∧ operand.dbName ≠ spec.parameterDBName ∧
      dbName ≠ spec.parameterDBName ∧ dbName ≠ spec.lookupDBName) := by
  obtain ⟨resolved, hresolved, hdb, -, hexternal⟩ := hoperand
  rw [hdb, hexternal]
  exact resolveOperand_lookup h.parameter hresolved

theorem IsLookup.mem_bound_iff {dbName fieldName : String} :
    (dbName, fieldName) ∈ route.bound ↔ dbName = spec.parameterDBName ∧
      ∃ operand ∈ route.operands, operand.dbName = spec.parameterDBName ∧
        operand.fieldName = fieldName := by
  rw [mem_bound]
  constructor
  · rintro ⟨operand, hoperand, hexternal, rfl, rfl⟩
    obtain ⟨name, -, hname⟩ := exists_of_mem_right h.operands hoperand
    rcases h.resolvesTo_cases hname with ⟨-, hdb, -⟩ | ⟨htrue, -⟩
    · exact ⟨hdb, operand, hoperand, hdb, rfl⟩
    · rw [hexternal] at htrue
      cases htrue
  · rintro ⟨rfl, operand, hoperand, hdb, rfl⟩
    obtain ⟨name, -, hname⟩ := exists_of_mem_right h.operands hoperand
    rcases h.resolvesTo_cases hname with ⟨hexternal, -⟩ | ⟨-, hne, -⟩
    · exact ⟨operand, hoperand, hexternal, hdb, rfl⟩
    · exact absurd hdb hne

theorem IsLookup.bound_of_target {fieldName : String}
    (htarget : lookupTarget route spec = .shardKey fieldName) :
    (spec.parameterDBName, fieldName) ∈ route.bound := by
  unfold lookupTarget at htarget
  split at htarget
  · rename_i operand hoperand
    cases htarget
    obtain ⟨hmem, hdb⟩ := routeOperandByDBName_some hoperand
    exact h.mem_bound_iff.mpr ⟨rfl, operand, hmem, hdb, rfl⟩
  · cases htarget

/-- An operand for the list must be the field that is sent. -/
theorem IsLookup.target_of_readsKey
    (hkey : ReadsKey route.bound [spec.parameterDBName] [lookupTarget route spec])
    {name : String} {operand : RouteOperand} (hoperand : operand ∈ route.operands)
    (hname : ResolvesTo g query arg spec name operand)
    (hlist : name = spec.parameterDBName ∨ name = spec.lookupDBName) :
    lookupTarget route spec = .shardKey operand.fieldName := by
  rcases h.resolvesTo_cases hname with ⟨-, hdb, -⟩ | ⟨-, -, hne, hne'⟩
  · have hexpr := hkey (spec.parameterDBName, operand.fieldName)
      (h.mem_bound_iff.mpr ⟨rfl, operand, hoperand, hdb, rfl⟩) 0 rfl
    exact Option.some.inj hexpr
  · rcases hlist with heq | heq
    · exact absurd heq hne
    · exact absurd heq hne'

/-- Named in one way, the list has one field in the shard key. -/
theorem IsLookup.fieldName_eq
    (hone : spec.parameterDBName ∈ dbNames → spec.lookupDBName ∈ dbNames →
      spec.lookupDBName = spec.parameterDBName)
    {operand operand' : RouteOperand} (hoperand : operand ∈ route.operands)
    (hdb : operand.dbName = spec.parameterDBName) (hoperand' : operand' ∈ route.operands)
    (hdb' : operand'.dbName = spec.parameterDBName) :
    operand'.fieldName = operand.fieldName := by
  obtain ⟨name, hmem, hresolves⟩ := exists_of_mem_right h.operands hoperand
  obtain ⟨name', hmem', hresolves'⟩ := exists_of_mem_right h.operands hoperand'
  have hnames : name' = name := by
    rcases h.resolvesTo_cases hresolves with ⟨-, -, hcases⟩ | ⟨-, hne, -⟩
    · rcases h.resolvesTo_cases hresolves' with ⟨-, -, hcases'⟩ | ⟨-, hne, -⟩
      · rcases hcases with rfl | rfl <;> rcases hcases' with rfl | rfl
        · rfl
        · exact hone hmem hmem'
        · exact (hone hmem' hmem).symm
        · rfl
      · exact absurd hdb' hne
    · exact absurd hdb hne
  subst hnames
  obtain ⟨source, hsource, -, hfield, -⟩ := hresolves
  obtain ⟨source', hsource', -, hfield', -⟩ := hresolves'
  rw [hsource] at hsource'
  cases hsource'
  rw [hfield, hfield']

/-- The lookup value is that of every operand for the list when there is only one. -/
theorem IsLookup.readsKey_iff :
    ReadsKey route.bound [spec.parameterDBName] [lookupTarget route spec] ↔
      (spec.parameterDBName ∈ dbNames → spec.lookupDBName ∈ dbNames →
        spec.lookupDBName = spec.parameterDBName) := by
  constructor
  · intro hkey hparameter hlookup
    refine eq_of_forall₂ h.operands h.nodup hlookup hparameter ?_
    intro operand hoperand operand' hoperand' hresolves hresolves'
    have htarget := h.target_of_readsKey hkey hoperand hresolves (.inr rfl)
    have htarget' := h.target_of_readsKey hkey hoperand' hresolves' (.inl rfl)
    exact ArgExpr.shardKey.inj (htarget.symm.trans htarget')
  · rintro hone ⟨dbName, fieldName⟩ hentry i hname
    obtain ⟨rfl, operand, hoperand, hdb, rfl⟩ := h.mem_bound_iff.mp hentry
    have hzero : i = 0 := by
      have hlt := (List.getElem?_eq_some_iff.mp hname).1
      simpa using hlt
    subst hzero
    cases hfind : routeOperandByDBName route spec.parameterDBName with
    | none =>
        apply absurd (List.mem_map.mpr ⟨operand, hoperand, hdb⟩)
        exact routeOperandByDBName_none.mp hfind
    | some found =>
        obtain ⟨hfound, hfounddb⟩ := routeOperandByDBName_some hfind
        have htarget : lookupTarget route spec = .shardKey found.fieldName := by
          unfold lookupTarget
          rw [hfind]
        rw [htarget, h.fieldName_eq hone hoperand hdb hfound hfounddb]
        rfl

end Lookup

theorem IsLookup.reads {wrapper : ShardArgWrapper} {w : WrapperFields}
    {lookupExpression lookupExpression' : String} {itemIsPointer : Bool}
    (h : IsLookup g query arg spec dbNames route)
    (hlookup : wrapLookup (ε := ε) built route spec = .ok (lookupExpression, w))
    (hroute : out.route = some route) (hmode : out.shardMode = .groupedMany)
    (hwrapper : out.shardArgs = some wrapper) (hfields : wrapper.fields = w.fields)
    (hspec : out.groupedMany =
      some { spec with lookupExpression := lookupExpression', itemIsPointer }) :
    Reads out route wrapper [lookupTarget route spec] := by
  obtain ⟨-, hown, htarget⟩ := wrapLookup_ok hlookup
  refine ⟨hroute, hwrapper, ?_, ?_, ?_, ?_⟩
  · intro ν arg
    unfold GeneratedQuery.sentFor
    rw [hroute, hmode, hspec]
    rfl
  · exact nodup_declared h.nodup (by rw [hfields]; exact hown)
  · rw [List.forall_mem_singleton]
    cases hexpr : lookupTarget route spec with
    | shardKey name => exact mem_declared_of_bound (h.bound_of_target hexpr)
    | field name =>
        obtain ⟨field, hfield, rfl⟩ := List.mem_map.mp (htarget name hexpr)
        refine List.mem_map.mpr ⟨(.field field.name, field.typ), ?_, rfl⟩
        apply List.mem_append_right
        rw [hfields]
        exact List.mem_map.mpr ⟨field, hfield, rfl⟩
  · intro name hname
    exact List.mem_map_of_mem (h.bound_of_target (List.mem_singleton.mp hname).symm)

theorem neverDrifts_iff_of_lookup [Nontrivial ν] {ret : QueryValue}
    (harg : buildQueryArg g query = .ok built.arg)
    (hret : buildQueryReturn g query = .ok ret)
    (hspec : buildLookup g query built.arg ret = .ok (some spec))
    (hroute : resolveShardRoute g query built.arg ann (some spec) = .ok resolved)
    (hbuilt : built.route = some (scalarizeGroupedManyRoute resolved spec))
    (hmode : built.shardMode = .groupedMany)
    (hwrap : wrapGroupedManyShardOperands (ε := ε) built
      (scalarizeGroupedManyRoute resolved spec) spec g.opts = .ok out) :
    NeverDrifts ν (parameterNames g query) out ↔ Consistent g query ann.operands := by
  unfold buildLookup at hspec
  split at hspec
  · rename_i hmany
    obtain ⟨param, hparam, harray⟩ := buildGroupedManySpec_some hspec
    obtain ⟨_, ⟨⟩, hname, htyp, hparameter, key, hkey, hlookupName⟩ :=
      buildGroupedManySpec_list hspec hparam harray
    obtain ⟨hnames, hlist⟩ := list_parameter harg hparam hname
    obtain ⟨hoperands, hnodup⟩ := resolveShardRoute_ok hroute
    have hlookup : IsLookup g query built.arg spec ann.operands
        (scalarizeGroupedManyRoute resolved spec) :=
      ⟨scalarize_resolvesTo hoperands, by rw [scalarize_fieldNames]; exact hnodup,
        by rw [hparameter]; exact hlist⟩
    obtain ⟨lookupExpression, w, wrapper, itemIsPointer, htext, hroute', hmode', hwrapper,
      hfields, hspec'⟩ := wrapGroupedManyShardOperands_ok hwrap
    have hreads := hlookup.reads htext (hroute'.trans hbuilt) (hmode'.trans hmode) hwrapper
      hfields hspec'
    have hconsistent : Consistent g query ann.operands ↔
        (param.column.name ∈ ann.operands → singular g param.column.name ∈ ann.operands →
          singular g param.column.name = param.column.name ∨
            param.column.name ∈ resultColumns g query) := by
      rw [consistent_iff_of_lone hparam]
      exact ⟨fun h => h.2 hmany harray, fun h => ⟨fun _ _ => .inr htyp, fun _ _ => h⟩⟩
    have hcolumns := mem_resultColumns hret (by rw [hmany]; rfl) hname
    rw [hreads.neverDrifts_iff, hnames, ← hparameter, hlookup.readsKey_iff, hconsistent,
      ← hcolumns, hlookupName, hparameter]
    · rcases groupedManyResultKey_ok hkey with ⟨hmem, hsame⟩ | ⟨hnot, hsame, hne⟩
      · exact ⟨fun _ _ _ => .inr hmem, fun _ _ _ => hsame⟩
      · rw [hsame]
        constructor
        · intro h hp hs
          exact .inl (h hp hs)
        · intro h hp hs
          rcases h hp hs with hsing | hmem
          · exact hsing
          · exact absurd hmem hnot
    · rintro ⟨dbName, fieldName⟩ hentry _
      rw [hnames, (hlookup.mem_bound_iff.mp hentry).1, hparameter]
      exact List.mem_singleton.mpr rfl
  · cases hspec

theorem neverDrifts_iff_consistent [Nontrivial ν] (hbuild : buildQuery g query = .ok built)
    (hwrapped : wrapQuery (ε := ε) built g.opts = .ok out) (hroute : out.route ≠ none) :
    ∃ kind ann store, g.classifyQuery query = .ok (kind, some ann, store) ∧
      (NeverDrifts ν (parameterNames g query) out ↔ Consistent g query ann.operands) ∧
      ∀ route spec, out.route = some route → out.groupedMany = some spec →
        spec.lookupExpression = (lookupTarget route spec).itemText route.methodName := by
  obtain ⟨route, hsome, hwrap⟩ := wrapQuery_ok hwrapped hroute
  obtain ⟨harg, ret, results, kind, ann, store, hret, hclassify, hbuilt⟩ :=
    buildQuery_ok hbuild hsome
  obtain ⟨resolved, hlookup, hresolved, ⟨hnone, hmode, rfl⟩ | ⟨spec, hspec, hmode, rfl⟩⟩ :=
    buildRoute_ok hbuilt
  · rcases hwrap with ⟨spec, hgrouped, -⟩ | ⟨-, hwrap⟩
    · exact absurd hgrouped hmode
    · obtain ⟨-, -, hmode', hnone'⟩ := wrapShardParameters_route hwrap
      rw [hnone] at hlookup hresolved hnone'
      have hplain : Plain query := by
        intro hmany param hparam
        rw [buildLookup, if_pos hmany] at hlookup
        by_contra harray
        obtain ⟨spec, hspec, -⟩ :=
          buildGroupedManySpec_list hlookup hparam (by simpa using harray)
        cases hspec
      refine ⟨kind, ann, store, hclassify, ?_, ?_⟩
      · rcases buildQueryArg_cases harg with ⟨hparams, hempty⟩ |
          ⟨param, hparam, hlimit, hscalar⟩ | ⟨strct, hlone, hstrct⟩
        · obtain ⟨hdrift, hconsistent⟩ := neverDrifts_of_empty (ν := ν) hparams hempty
            hresolved hwrap fun _ => hnone'
          exact ⟨fun _ => hconsistent, fun _ => hdrift⟩
        · exact neverDrifts_iff_of_scalar hparam hlimit hscalar hresolved hwrap
            (fun _ => hnone') hplain
        · exact neverDrifts_iff_of_struct hlone hstrct hresolved hwrap (fun _ => hnone')
            hplain
      · intro route' spec _ hspec
        rw [hnone'] at hspec
        cases hspec
  · rcases hwrap with ⟨spec', -, hspec', hwrap⟩ | ⟨hnot, -⟩
    · rw [hspec] at hspec' hlookup hresolved
      cases hspec'
      refine ⟨kind, ann, store, hclassify, ?_, ?_⟩
      · exact neverDrifts_iff_of_lookup harg hret hlookup hresolved hsome hmode hwrap
      · intro route' spec' hroute' hspec'
        obtain ⟨lookupExpression, w, wrapper, itemIsPointer, htext, hsame, -, -, -, heq⟩ :=
          wrapGroupedManyShardOperands_ok hwrap
        rw [hsame, hsome] at hroute'
        cases hroute'
        rw [heq] at hspec'
        cases hspec'
        exact (wrapLookup_ok htext).1
    · rw [hnot hmode] at hspec
      cases hspec

/--
Of the queries that the generator accepts, a routed one sends every operand that
is a SQL parameter from the shard key that its resolver gets, and no other
operand, exactly when its annotation names each SQL parameter in one way.
-/
theorem routing_key_never_drifts_iff [Nontrivial ν] {queries : List Query}
    {outs : List GeneratedQuery} (haccepted : buildQueries g queries = .ok outs)
    (hout : out ∈ outs) (hroute : out.route ≠ none) :
    ∃ query ∈ queries, ∃ built kind ann store,
      buildQuery g query = .ok built ∧ wrapQuery (ε := ε) built g.opts = .ok out ∧
      g.classifyQuery query = .ok (kind, some ann, store) ∧
      (NeverDrifts ν (parameterNames g query) out ↔ Consistent g query ann.operands) ∧
      ∀ route spec, out.route = some route → out.groupedMany = some spec →
        spec.lookupExpression = (lookupTarget route spec).itemText route.methodName := by
  obtain ⟨query, hquery, built, hbuilt, hwrapped⟩ :=
    exists_of_mem_buildQueries haccepted hout
  obtain ⟨kind, ann, store, hclassify, hiff, htext⟩ :=
    neverDrifts_iff_consistent (ν := ν) hbuilt hwrapped hroute
  exact ⟨query, hquery, built, kind, ann, store, hbuilt, hwrapped, hclassify, hiff, htext⟩

end Routed

/-! ## Accounts by their numbers -/

local instance : Unicode := Unicode.ascii

/-- A generator for queries with the given annotation, in which all columns are of
type `bigint` and `id` is the singular of `ids`. -/
def accountGenerator (ann : RouteAnnotation) : Generator Unit :=
  { tenantGenerator with
    goType := fun column => if column.isArray then "[]int64" else "int64"
    classifyQuery := fun _ => .ok (.read, some ann, "Accounts")
    inflectionSingular := fun name => if name = "ids" then "id" else name }

/-- `SELECT id, tenant_id FROM accounts WHERE id = ANY(sqlc.arg(ids)::bigint[])` -/
def listAccounts : Query where
  name := "ListAccounts"
  cmd := ":many"
  params := [⟨1, { name := "ids", isArray := true, arrayDims := 1, isNamedParam := true }⟩]
  columns := [{ name := "id" }, { name := "tenant_id" }]

theorem routing_key_never_drifts_iff_by_key :
    ∃ out, buildQueries (accountGenerator ⟨"accountKey", ["id"]⟩) [listAccounts] =
        .ok [out] ∧
      NeverDrifts Bool ["ids"] out := by
  obtain ⟨out, haccepted, hroute⟩ : ∃ out,
      buildQueries (accountGenerator ⟨"accountKey", ["id"]⟩) [listAccounts] = .ok [out] ∧
        out.route ≠ none :=
    ⟨_, rfl, Option.some_ne_none _⟩
  obtain ⟨query, hquery, built, kind, ann, store, -, -, hclassify, hiff, -⟩ :=
    routing_key_never_drifts_iff (ν := Bool) haccepted (List.mem_singleton.mpr rfl) hroute
  cases List.mem_singleton.mp hquery
  cases hclassify
  refine ⟨out, haccepted, hiff.mpr ⟨?_, by decide, ?_⟩⟩
  · rintro _ _ ⟨⟩ hmem
    exact absurd hmem (by decide)
  · rintro _ _ ⟨⟩ _ hmem
    exact absurd hmem (by decide)

/-- The annotation `accountKey(ids, id)` gives the shard key two fields for the list,
of which only the first one is sent. -/
theorem list_accounts_drift :
    ∃ out, buildQueries (accountGenerator ⟨"accountKey", ["ids", "id"]⟩) [listAccounts] =
        .ok [out] ∧
      out.route ≠ none ∧ ¬NeverDrifts Bool ["ids"] out := by
  refine ⟨_, rfl, Option.some_ne_none _, ?_⟩
  rintro ⟨route, wrapper, hroute, hwrapper, hmatches⟩
  cases hroute
  cases hwrapper
  -- The item {Ids: false, ID: true}.
  let item : WrapperValue Bool :=
    ⟨fun name => ⟨"int64", name == "ID"⟩, fun _ => ⟨"", false⟩⟩
  have htype : item.HasType [(.shardKey "Ids", "int64"), (.shardKey "ID", "int64")] := by
    simp [WrapperValue.HasType, ArgExpr.eval, item]
  have hsent : [some (item.shardKey "Ids")][0]? = some (some (item.shardKey "ID")) :=
    hmatches.sent item htype _ (.tail _ (.head _)) rfl 0 rfl
  simp [item] at hsent

end PgMesh.Plugin
