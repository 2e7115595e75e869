import PgMesh.Foundation.GoError
import PgMesh.Plugin.Naming

/-!
# Parameters and results of a query

The generator reads one `Query` for each SQL statement of sqlc's request and
repeats the declarations that sqlc makes for it: the parameters of the query
method are nothing, one scalar, a list of scalars or one structure.
-/

namespace PgMesh.Plugin

open PgMesh.Foundation

/-! ## The request -/

structure Identifier where
  catalog : String
  schema : String
  name : String
  deriving DecidableEq, Repr

structure Column where
  name : String
  originalName : String := ""
  type : Identifier := ⟨"", "", ""⟩
  notNull : Bool := false
  unsigned : Bool := false
  isArray : Bool := false
  arrayDims : Nat := 0
  isSqlcSlice : Bool := false
  isNamedParam : Bool := false
  table : Option Identifier := none
  embedTable : Option Identifier := none

structure Parameter where
  number : Nat
  column : Column

structure Query where
  name : String
  cmd : String
  text : String := ""
  comments : List String := []
  params : List Parameter := []
  columns : List Column := []
  insertIntoTable : Option Identifier := none

def cmdMany : String := ":many"
def cmdExec : String := ":exec"
def cmdExecRows : String := ":execrows"
def cmdCopyFrom : String := ":copyfrom"
def defaultArgumentName : String := "arg"
def resultErrorName : String := "error"

inductive QueryKind where
  | read
  | write
  deriving DecidableEq, Repr

structure RouteAnnotation where
  name : String
  operands : List String

/-! ## Declarations -/

structure GoField where
  name : String
  dbName : String
  typ : String
  deriving DecidableEq, Repr

structure GoStruct where
  table : Option Identifier
  name : String
  fields : List GoField

structure QueryValue where
  emit : Bool := false
  emitPointer : Bool := false
  name : String := ""
  dbName : String := ""
  structType : Option GoStruct := none
  typ : String := ""

structure Argument where
  name : String
  typ : String
  deriving DecidableEq, Repr

/--
What a run of the generator is given besides the queries: the options, the
structures of the table models, and the functions that are not modelled here.
These are the type mapping `typeResolver.goType`, the parser of the comments in
front of a query, the reader of the relations that a statement names, and the
library function `inflection.Singular`.
-/
structure Generator (ε : Type) where
  opts : Options
  structs : List GoStruct
  defaultSchema : String
  goType : Column → String
  classifyQuery : Query →
    Except (GoError ε) (QueryKind × Option RouteAnnotation × String)
  queryRelationIdentifiers : String → List Identifier
  inflectionSingular : String → String

def sameTableName (left right : Option Identifier) (defaultSchema : String) : Bool :=
  match left, right with
  | some left, some right =>
      let leftSchema := if left.schema = "" then defaultSchema else left.schema
      let rightSchema := if right.schema = "" then defaultSchema else right.schema
      left.catalog == right.catalog && leftSchema == rightSchema &&
        left.name == right.name
  | _, _ => false

def columnName (column : Column) (pos : Nat) : String :=
  if column.name ≠ "" then column.name else "column_" ++ toString (pos + 1)

namespace QueryValue

def isEmpty (v : QueryValue) : Bool :=
  v.typ == "" && v.name == "" && v.structType.isNone

def defineType (v : QueryValue) (opts : Options) : String :=
  let typ :=
    match v.structType with
    | some strct => if v.typ = "" then targetName opts strct.name else v.typ
    | none => v.typ
  if v.emitPointer && v.structType.isSome then "*" ++ typ else typ

end QueryValue

section Build

variable {ε : Type} [Unicode]

def paramName (param : Parameter) : String :=
  if param.column.name ≠ "" then argName param.column.name
  else "dollar_" ++ toString param.number

namespace QueryValue

def pairs (v : QueryValue) (opts : Options) : List Argument :=
  if v.isEmpty then []
  else
    match v.emit, v.structType with
    | false, some strct =>
        strct.fields.map fun field => ⟨escape (lowerTitle field.name), field.typ⟩
    | _, _ => [⟨escape v.name, v.defineType opts⟩]

def slicePair (v : QueryValue) (opts : Options) : Argument :=
  ⟨escape v.name, "[]" ++ v.defineType opts⟩

end QueryValue

/-! ## Structures from columns -/

structure GoColumn where
  id : Nat
  column : Column

/-- The variables of the loop in `columnsToStruct`. -/
structure ColumnsState where
  fields : List GoField := []
  seen : GoMap String (List Nat) := []
  suffixes : GoMap Nat Nat := []

def fieldSuffix (st : ColumnsState) (useID : Bool) (column : GoColumn)
    (fieldName : String) : Nat :=
  let count := (GoMap.getD st.seen fieldName []).length
  let repeated := if count > 0 && !column.column.isNamedParam then count + 1 else 0
  match GoMap.get? st.suffixes column.id with
  | some existing => if useID then existing else repeated
  | none => repeated

def addColumn (g : Generator ε) (useID : Bool) (st : ColumnsState)
    (entry : GoColumn × Nat) : ColumnsState :=
  let (column, idx) := entry
  let dbName := columnName column.column idx
  let baseFieldName := structName dbName g.opts
  let suffix := fieldSuffix st useID column baseFieldName
  let fieldName :=
    if suffix > 0 then baseFieldName ++ "_" ++ toString suffix else baseFieldName
  { fields := st.fields ++ [⟨fieldName, dbName, g.goType column.column⟩]
    seen := GoMap.set st.seen baseFieldName
      (GoMap.getD st.seen baseFieldName [] ++ [idx])
    suffixes := GoMap.set st.suffixes column.id suffix }

def checkFieldTypes : List GoField → GoMap String String → Except (GoError ε) Unit
  | [], _ => .ok ()
  | field :: fields, fieldTypes =>
      match GoMap.get? fieldTypes field.name with
      | some existing =>
          if existing ≠ field.typ then
            .error (.errorf "named param %s has incompatible types: %s, %s"
              [.text field.name, .text existing, .text field.typ])
          else checkFieldTypes fields (GoMap.set fieldTypes field.name field.typ)
      | none => checkFieldTypes fields (GoMap.set fieldTypes field.name field.typ)

def checkIncompatibleFieldTypes (fields : List GoField) : Except (GoError ε) Unit :=
  checkFieldTypes fields []

def columnsToStruct (g : Generator ε) (name : String) (columns : List GoColumn)
    (useID : Bool) : Except (GoError ε) GoStruct := do
  let st := columns.zipIdx.foldl (addColumn g useID) {}
  checkIncompatibleFieldTypes st.fields
  return ⟨none, name, st.fields⟩

/-! The structure of the parameters, in closed form: every column becomes a field,
and a name is repeated only for named parameters. -/

def columnNames (columns : List Column) : List String :=
  columns.zipIdx.map fun entry => columnName entry.1 entry.2

/-- The field names of columns, after fields with the given base names. -/
def fieldNames (opts : Options) : List String → List (Column × Nat) → List String
  | _, [] => []
  | earlier, (column, idx) :: rest =>
      let base := structName (columnName column idx) opts
      let name :=
        if earlier.count base > 0 && !column.isNamedParam then
          base ++ "_" ++ toString (earlier.count base + 1)
        else base
      name :: fieldNames opts (earlier ++ [base]) rest

section Columns

variable {g : Generator ε}

theorem foldl_addColumn_dbName (useID : Bool) (entries : List (GoColumn × Nat))
    (st : ColumnsState) :
    (entries.foldl (addColumn g useID) st).fields.map GoField.dbName =
      st.fields.map GoField.dbName ++
        entries.map fun entry => columnName entry.1.column entry.2 := by
  induction entries generalizing st with
  | nil => simp
  | cons entry entries ih => simp [ih, addColumn]

theorem foldl_addColumn_typ (useID : Bool) (entries : List (GoColumn × Nat))
    (st : ColumnsState) :
    (entries.foldl (addColumn g useID) st).fields.map GoField.typ =
      st.fields.map GoField.typ ++
        entries.map fun entry => g.goType entry.1.column := by
  induction entries generalizing st with
  | nil => simp
  | cons entry entries ih => simp [ih, addColumn]

/-- The map `seen` counts how often a base name has occurred. -/
def ColumnsState.Counts (st : ColumnsState) (earlier : List String) : Prop :=
  ∀ base, (GoMap.getD st.seen base []).length = earlier.count base

omit [Unicode] in
theorem fieldSuffix_of_counts {st : ColumnsState} {earlier : List String}
    (hcounts : st.Counts earlier) (column : GoColumn) (base : String) :
    fieldSuffix st false column base =
      if earlier.count base > 0 && !column.column.isNamedParam then
        earlier.count base + 1
      else 0 := by
  unfold fieldSuffix
  rw [hcounts base]
  cases GoMap.get? st.suffixes column.id <;> rfl

theorem addColumn_counts {st : ColumnsState} {earlier : List String}
    (hcounts : st.Counts earlier) (entry : GoColumn × Nat) :
    (addColumn g false st entry).Counts
      (earlier ++ [structName (columnName entry.1.column entry.2) g.opts]) := by
  intro base
  simp only [addColumn, GoMap.getD_set, List.count_append, List.count_singleton]
  split
  · rename_i hbase
    have hsame := eq_of_beq hbase
    subst hsame
    simpa using hcounts _
  · simpa using hcounts base

theorem foldl_addColumn_name (entries : List (GoColumn × Nat)) {st : ColumnsState}
    {earlier : List String} (hcounts : st.Counts earlier) :
    (entries.foldl (addColumn g false) st).fields.map GoField.name =
      st.fields.map GoField.name ++ fieldNames g.opts earlier
        (entries.map fun entry => (entry.1.column, entry.2)) := by
  induction entries generalizing st earlier with
  | nil => simp [fieldNames]
  | cons entry entries ih =>
      rw [List.foldl_cons, ih (addColumn_counts hcounts entry), List.map_cons,
        fieldNames]
      simp only [addColumn, fieldSuffix_of_counts hcounts, List.map_append,
        List.map_cons, List.map_nil, List.append_assoc, List.singleton_append]
      congr 2
      split <;> simp

end Columns

def buildQueryArg (g : Generator ε) (query : Query) :
    Except (GoError ε) QueryValue :=
  let limit := g.opts.queryParameterLimit
  match query.params with
  | [] => .ok {}
  | [param] =>
      if limit ≠ 0 then
        .ok
          { name := escape (paramName param)
            dbName := param.column.name
            typ := g.goType param.column }
      else structArg g query limit
  | _ => structArg g query limit
where
  structArg (g : Generator ε) (query : Query) (limit : Nat) :
      Except (GoError ε) QueryValue := do
    let columns := query.params.map fun param => ⟨param.number, param.column⟩
    let strct ← columnsToStruct g (query.name ++ "Params") columns false
    return {
      emit := decide (query.params.length > limit) || query.cmd == cmdCopyFrom
      emitPointer := g.opts.emitParamsStructPointers
      name := defaultArgumentName
      structType := some strct }

/-- `arg` is the parameter structure `strct` of the query. -/
structure IsStructArg (g : Generator ε) (query : Query) (strct : GoStruct)
    (arg : QueryValue) : Prop where
  arg_eq : arg =
    { emit := decide (query.params.length > g.opts.queryParameterLimit) ||
        query.cmd == cmdCopyFrom
      emitPointer := g.opts.emitParamsStructPointers
      name := defaultArgumentName
      structType := some strct }
  dbNames : strct.fields.map GoField.dbName =
    columnNames (query.params.map Parameter.column)
  types : strct.fields.map GoField.typ =
    query.params.map fun param => g.goType param.column
  names : strct.fields.map GoField.name =
    fieldNames g.opts [] (query.params.map Parameter.column).zipIdx

theorem structArg_ok {g : Generator ε} {query : Query} {arg : QueryValue}
    (h : buildQueryArg.structArg g query g.opts.queryParameterLimit = .ok arg) :
    ∃ strct, IsStructArg g query strct arg := by
  obtain ⟨strct, hstrct, harg⟩ := bind_eq_ok.mp h
  obtain ⟨-, -, hfields⟩ := bind_eq_ok.mp hstrct
  cases harg
  cases hfields
  have hstart : ({} : ColumnsState).Counts [] := fun base => rfl
  have hcolumns : (query.params.map fun param =>
      (⟨param.number, param.column⟩ : GoColumn)).zipIdx.map
        (fun entry => (entry.1.column, entry.2)) =
      (query.params.map Parameter.column).zipIdx := by
    rw [List.zipIdx_map, List.zipIdx_map, List.map_map]
    rfl
  refine ⟨_, rfl, ?_, ?_, ?_⟩
  · rw [foldl_addColumn_dbName]
    simp [columnNames, List.zipIdx_map]
  · rw [foldl_addColumn_typ]
    have hfst := List.zipIdx_map_fst 0 query.params
    simp only [List.zipIdx_map, List.map_map, List.map_nil, List.nil_append]
    conv_rhs => rw [← hfst, List.map_map]
    rfl
  · rw [foldl_addColumn_name _ hstart, hcolumns]
    rfl

/-- The shapes of the parameters: nothing, a scalar or a structure. -/
theorem buildQueryArg_cases {g : Generator ε} {query : Query} {arg : QueryValue}
    (h : buildQueryArg g query = .ok arg) :
    (query.params = [] ∧ arg = {}) ∨
    (∃ param, query.params = [param] ∧ g.opts.queryParameterLimit ≠ 0 ∧
      arg =
        { name := escape (paramName param)
          dbName := param.column.name
          typ := g.goType param.column }) ∨
    ∃ strct, (query.params.length = 1 → g.opts.queryParameterLimit = 0) ∧
      IsStructArg g query strct arg := by
  unfold buildQueryArg at h
  split at h
  · rename_i hparams
    cases h
    exact .inl ⟨hparams, rfl⟩
  · rename_i param hparams
    dsimp only at h
    split at h
    · rename_i hlimit
      cases h
      exact .inr (.inl ⟨param, hparams, hlimit, rfl⟩)
    · rename_i hlimit
      obtain ⟨strct, hstrct⟩ := structArg_ok h
      exact .inr (.inr ⟨strct, fun _ => not_not.mp hlimit, hstrct⟩)
  · rename_i hmany
    obtain ⟨strct, hstrct⟩ := structArg_ok h
    refine .inr (.inr ⟨strct, fun hone => ?_, hstrct⟩)
    obtain ⟨param, hparam⟩ := List.length_eq_one_iff.mp hone
    exact absurd hparam (hmany param)

/-! ## Results -/

def queryReturnsData (cmd : String) : Bool :=
  cmd == ":one" || cmd == cmdMany || cmd == ":batchone" || cmd == ":batchmany"

def queryColumnsMatchStruct (g : Generator ε) (columns : List Column)
    (strct : GoStruct) : Bool :=
  strct.fields.length == columns.length &&
    (strct.fields.zip columns.zipIdx).all fun (field, column, idx) =>
      field.name == structName (columnName column idx) g.opts &&
        field.typ == g.goType column &&
        sameTableName column.table strct.table g.defaultSchema

/-- `strings.ReplaceAll(name, "$", "_")`. -/
def replaceDollars (name : String) : String :=
  String.ofList (name.toList.map fun r => if r = '$' then '_' else r)

def buildQueryReturn (g : Generator ε) (query : Query) :
    Except (GoError ε) QueryValue :=
  if !queryReturnsData query.cmd then .ok {}
  else
    match query.columns with
    | [] => .ok {}
    | [column] =>
        if column.embedTable.isNone then
          let name := replaceDollars (columnName column 0)
          .ok { name := escape name, dbName := name, typ := g.goType column }
        else structReturn g query
    | _ => structReturn g query
where
  structReturn (g : Generator ε) (query : Query) :
      Except (GoError ε) QueryValue := do
    match g.structs.find? (queryColumnsMatchStruct g query.columns) with
    | some model =>
        return {
          emitPointer := g.opts.emitResultStructPointers
          name := "i"
          structType := some model }
    | none =>
        let columns := query.columns.zipIdx.map fun (column, idx) => ⟨idx, column⟩
        let model ← columnsToStruct g (query.name ++ "Row") columns true
        return {
          emit := true
          emitPointer := g.opts.emitResultStructPointers
          name := "i"
          structType := some model }

/-! The columns of a row of the result, as the generator knows them. -/

/-- The columns of a row that is returned as a structure. -/
def rowColumns (g : Generator ε) (columns : List Column) : List String :=
  match g.structs.find? (queryColumnsMatchStruct g columns) with
  | some model => model.fields.map GoField.dbName
  | none => columnNames columns

def resultColumns (g : Generator ε) (query : Query) : List String :=
  match query.columns with
  | [] => []
  | [column] =>
      if column.embedTable.isNone then [replaceDollars (columnName column 0)]
      else rowColumns g [column]
  | columns => rowColumns g columns

def QueryValue.resultColumns (v : QueryValue) : List String :=
  match v.structType with
  | some strct => strct.fields.map GoField.dbName
  | none => [v.dbName]

theorem structReturn_resultColumns {g : Generator ε} {query : Query} {ret : QueryValue}
    (h : buildQueryReturn.structReturn g query = .ok ret) :
    ret.resultColumns = rowColumns g query.columns := by
  unfold buildQueryReturn.structReturn at h
  unfold rowColumns
  split at h
  · cases h
    rfl
  · obtain ⟨model, hmodel, h⟩ := bind_eq_ok.mp h
    obtain ⟨-, -, hfields⟩ := bind_eq_ok.mp hmodel
    cases h
    cases hfields
    have hindexed : (query.columns.zipIdx.map fun (column, idx) =>
        (⟨idx, column⟩ : GoColumn)).zipIdx.map
          (fun entry => (entry.1.column, entry.2)) = query.columns.zipIdx := by
      rw [List.zipIdx_map, List.map_map]
      apply List.ext_getElem?
      intro i
      simp only [List.getElem?_map, List.getElem?_zipIdx, Option.map_map, Function.comp_def]
      simp
    simp only [QueryValue.resultColumns, foldl_addColumn_dbName, columnNames,
      List.map_nil, List.nil_append]
    conv_rhs => rw [← hindexed, List.map_map]
    rfl

/-- A name is a column of the value that the generator makes for the result. -/
theorem mem_resultColumns {g : Generator ε} {query : Query} {ret : QueryValue}
    (h : buildQueryReturn g query = .ok ret) (hcmd : queryReturnsData query.cmd = true)
    {name : String} (hname : name ≠ "") :
    name ∈ ret.resultColumns ↔ name ∈ resultColumns g query := by
  simp only [buildQueryReturn, hcmd, Bool.not_true, Bool.false_eq_true, if_false] at h
  split at h
  · rename_i hcolumns
    cases h
    simpa [resultColumns, QueryValue.resultColumns, hcolumns] using hname
  · rename_i column hcolumns
    split at h
    · rename_i hembed
      cases h
      simp [resultColumns, QueryValue.resultColumns, hcolumns, hembed]
    · rename_i hembed
      rw [structReturn_resultColumns h]
      simp [resultColumns, hcolumns, hembed]
  · rename_i hnone hone
    rw [structReturn_resultColumns h]
    unfold resultColumns
    split
    · rename_i hcolumns
      exact absurd hcolumns hnone
    · rename_i column hcolumns
      exact absurd hcolumns (hone column)
    · rfl

def resultTypes (query : Query) (ret : QueryValue) (opts : Options) :
    Except (GoError ε) (List String) :=
  if query.cmd = ":one" then .ok [ret.defineType opts, resultErrorName]
  else if query.cmd = cmdMany then
    .ok ["[]" ++ ret.defineType opts, resultErrorName]
  else if query.cmd = cmdExec then .ok [resultErrorName]
  else if query.cmd = cmdExecRows ∨ query.cmd = cmdCopyFrom then
    .ok ["int64", resultErrorName]
  else if query.cmd = ":execresult" then .ok ["pgconn.CommandTag", resultErrorName]
  else if query.cmd = ":batchexec" ∨ query.cmd = ":batchone" ∨
      query.cmd = ":batchmany" then
    .ok ["*" ++ targetName opts (query.name ++ "BatchResults")]
  else
    .error (.errorf "unsupported query command %q for %s"
      [.text query.cmd, .text query.name])

def lastResultIsError (results : List String) : Bool :=
  results.getLast? == some resultErrorName

end Build

end PgMesh.Plugin
