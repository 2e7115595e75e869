import PgMesh.Plugin.Query

/-!
# Lists of lookup keys

A routed `:many` query whose only parameter is a one-dimensional list is
generated as a method over items.  Each row of its result must then show the
lookup key, so that the rows can be put back into the order of the items.
-/

namespace PgMesh.Plugin

open PgMesh.Foundation

structure GroupedManyResultKeyAccess where
  nullable : Bool := false
  pointer : Bool := false
  valid : Bool := false
  valueField : String := ""
  deriving DecidableEq, Repr

structure GroupedManySpec where
  parameterDBName : String
  parameterField : String
  lookupDBName : String
  lookupField : String
  lookupExpression : String
  elementType : String
  resultKeyField : String
  resultIsStruct : Bool
  resultKeyAccess : GroupedManyResultKeyAccess
  itemIsPointer : Bool

def splitTypeQualifier (typ : String) : String × String :=
  (cut typ '.').getD ("", typ)

/-- For each nullable type, its element type and the field of its value. -/
def nullableTypes : GoMap String (String × String) :=
  [("pgtype.Int4", "int32", "Int32"), ("pgtype.Int8", "int64", "Int64"),
    ("pgtype.Int2", "int16", "Int16"), ("pgtype.Float8", "float64", "Float64"),
    ("pgtype.Float4", "float32", "Float32"), ("pgtype.Bool", "bool", "Bool"),
    ("pgtype.Text", "string", "String"), ("sql.NullBool", "bool", "Bool"),
    ("sql.NullByte", "byte", "Byte"), ("sql.NullFloat64", "float64", "Float64"),
    ("sql.NullInt16", "int16", "Int16"), ("sql.NullInt32", "int32", "Int32"),
    ("sql.NullInt64", "int64", "Int64"), ("sql.NullString", "string", "String"),
    ("sql.NullTime", "time.Time", "Time")]

def groupedManyKeyAccess (resultType elementType : String) :
    Option GroupedManyResultKeyAccess :=
  if resultType = elementType then some {}
  else if resultType = "*" ++ elementType then
    some { nullable := true, pointer := true }
  else
    match (GoMap.get? nullableTypes resultType).filter (·.1 == elementType) with
    | some nullable =>
        some { nullable := true, valid := true, valueField := nullable.2 }
    | none =>
        let (resultQualifier, resultName) := splitTypeQualifier resultType
        let (elementQualifier, elementName) := splitTypeQualifier elementType
        if resultQualifier = elementQualifier ∧ resultName = "Null" ++ elementName ∧
            elementName ≠ "" then
          some { nullable := true, valid := true, valueField := elementName }
        else none

section Build

variable {ε : Type} [Unicode]

def singular (g : Generator ε) (name : String) : String :=
  let lower := toLower name
  if lower = "campus" ∨ lower = "meta" ∨ lower = "metadata" then name
  else if lower = "calories" then "calorie"
  else if lower = "waves" then "wave"
  else g.inflectionSingular name

def lookupKeyError (queryName lookupDBName typ elementType : String) : GoError ε :=
  .errorf "query %s grouped :many result key %q has Go type %s, want %s"
    [.text queryName, .text lookupDBName, .text typ, .text elementType]

def groupedManyLookupDescription (lookupDBNames : List String) :
    FormatArg (GoError ε) :=
  match lookupDBNames with
  | [lookupDBName] => .sprintf "%q" [lookupDBName]
  | lookupDBNames => .sprintf "%q or its singular form %q" lookupDBNames

/-- The loop of `groupedManyResultKey` over the names for a scalar result. -/
def scalarResultKey (queryName : String) (ret : QueryValue) (elementType : String) :
    List String → Option (Except (GoError ε)
      (String × String × Bool × GroupedManyResultKeyAccess))
  | [] => none
  | lookupDBName :: names =>
      if ret.dbName ≠ lookupDBName then scalarResultKey queryName ret elementType names
      else
        match groupedManyKeyAccess ret.typ elementType with
        | none =>
            some (.error (lookupKeyError queryName lookupDBName ret.typ elementType))
        | some access => some (.ok ("", lookupDBName, false, access))

/-- The loop of `groupedManyResultKey` over the names for a structure. -/
def structResultKey (queryName : String) (fields : List GoField)
    (elementType : String) : List String → Option (Except (GoError ε)
      (String × String × Bool × GroupedManyResultKeyAccess))
  | [] => none
  | lookupDBName :: names =>
      match fields.filter (·.dbName == lookupDBName) with
      | [] => structResultKey queryName fields elementType names
      | [field] =>
          match groupedManyKeyAccess field.typ elementType with
          | none =>
              some (.error
                (lookupKeyError queryName lookupDBName field.typ elementType))
          | some access => some (.ok (field.name, lookupDBName, true, access))
      | _ =>
          some (.error (.errorf
            "query %s grouped :many result exposes multiple fields for lookup key %q"
            [.text queryName, .text lookupDBName]))

def groupedManyResultKey (g : Generator ε) (queryName : String) (ret : QueryValue)
    (parameterDBName elementType : String) :
    Except (GoError ε) (String × String × Bool × GroupedManyResultKeyAccess) :=
  let singularName := singular g parameterDBName
  let lookupDBNames :=
    if singularName ≠ parameterDBName then [parameterDBName, singularName]
    else [parameterDBName]
  match ret.structType with
  | none =>
      (scalarResultKey queryName ret elementType lookupDBNames).getD
        (.error (.errorf
          "query %s grouped :many result must expose lookup key %s; got scalar result %q"
          [.text queryName, groupedManyLookupDescription lookupDBNames,
            .text ret.dbName]))
  | some strct =>
      (structResultKey queryName strct.fields elementType lookupDBNames).getD
        (.error (.errorf
          "query %s grouped :many result must expose exactly one field for lookup key %s"
          [.text queryName, groupedManyLookupDescription lookupDBNames]))

def isOneDimensionalArray (column : Column) : Bool :=
  column.isSqlcSlice || (column.isArray && column.arrayDims == 1)

/-- The specification of the lookup, or `none` for a query of another shape. -/
def buildGroupedManySpec (g : Generator ε) (query : Query) (arg ret : QueryValue) :
    Except (GoError ε) (Option GroupedManySpec) := do
  let [param] := query.params | return none
  let column := param.column
  if !isOneDimensionalArray column then return none
  if column.name = "" then
    .error (.errorf ("query %s grouped :many list parameter must have a name " ++
      "so returned rows can be reordered") [.text query.name])
  let parameterType := g.goType column
  let some elementType := (cutPrefix parameterType "[]").filter (· ≠ "")
    | .error (.errorf "query %s grouped :many parameter %q has non-list Go type %s"
        [.text query.name, .text column.name, .text parameterType])
  let parameterField ←
    match arg.structType with
    | none => .ok (structName column.name g.opts)
    | some strct =>
        match strct.fields with
        | [field] => .ok field.name
        | fields =>
            .error (.errorf ("query %s grouped :many expected one generated SQL " ++
              "parameter field, got %d") [.text query.name, .number fields.length])
  let (resultKeyField, lookupDBName, resultIsStruct, resultKeyAccess) ←
    groupedManyResultKey g query.name ret column.name elementType
  return some
    { parameterDBName := column.name
      parameterField
      lookupDBName
      lookupField :=
        if resultIsStruct then resultKeyField else structName lookupDBName g.opts
      lookupExpression := ""
      elementType
      resultKeyField
      resultIsStruct
      resultKeyAccess
      itemIsPointer := false }

/-! The lookup key is the name of the list parameter if the result has such a
column, and the singular of that name otherwise. -/

section Key

variable {queryName elementType : String} {names : List String}
  {key : String × String × Bool × GroupedManyResultKeyAccess}

omit [Unicode] in
theorem scalarResultKey_ok {ret : QueryValue}
    (h : scalarResultKey (ε := ε) queryName ret elementType names = some (.ok key)) :
    names.find? (fun name => decide (name ∈ [ret.dbName])) = some key.2.1 := by
  induction names with
  | nil => cases h
  | cons name names ih =>
      unfold scalarResultKey at h
      split at h
      · rename_i hne
        have hmiss : name ∉ [ret.dbName] := by simpa using Ne.symm hne
        rw [List.find?_cons_of_neg (by simpa using hmiss)]
        exact ih h
      · rename_i heq
        have hhit : name ∈ [ret.dbName] := by simpa using (not_not.mp heq).symm
        rw [List.find?_cons_of_pos (by simpa using hhit)]
        split at h
        · cases h
        · cases h
          rfl

omit [Unicode] in
theorem structResultKey_ok {fields : List GoField}
    (h : structResultKey (ε := ε) queryName fields elementType names =
      some (.ok key)) :
    names.find? (fun name => decide (name ∈ fields.map GoField.dbName)) =
      some key.2.1 := by
  induction names with
  | nil => cases h
  | cons name names ih =>
      have hmem : name ∈ fields.map GoField.dbName ↔
          fields.filter (·.dbName == name) ≠ [] := by
        simp [List.filter_eq_nil_iff]
      unfold structResultKey at h
      split at h
      · rename_i hnil
        rw [List.find?_cons_of_neg (by simpa [hmem] using hnil)]
        exact ih h
      · rename_i field hone
        rw [List.find?_cons_of_pos (by simp [hmem, hone])]
        split at h
        · cases h
        · cases h
          rfl
      · cases h

omit [Unicode] in
theorem eq_some_of_getD_ok {E α : Type} {x : Option (Except E α)} {e : E} {a : α}
    (h : x.getD (.error e) = .ok a) : x = some (.ok a) := by
  cases x with
  | none => cases h
  | some result => exact congrArg some h

theorem groupedManyResultKey_ok {g : Generator ε} {ret : QueryValue}
    {parameterDBName : String}
    (h : groupedManyResultKey g queryName ret parameterDBName elementType = .ok key) :
    (parameterDBName ∈ ret.resultColumns ∧ key.2.1 = parameterDBName) ∨
    (parameterDBName ∉ ret.resultColumns ∧ key.2.1 = singular g parameterDBName ∧
      singular g parameterDBName ≠ parameterDBName) := by
  have hfind : (if singular g parameterDBName ≠ parameterDBName then
      [parameterDBName, singular g parameterDBName] else [parameterDBName]).find?
        (fun name => decide (name ∈ ret.resultColumns)) = some key.2.1 := by
    unfold groupedManyResultKey at h
    unfold QueryValue.resultColumns
    dsimp only at h
    split at h
    · rename_i hstrct
      rw [hstrct]
      exact scalarResultKey_ok (eq_some_of_getD_ok h)
    · rename_i strct hstrct
      rw [hstrct]
      exact structResultKey_ok (eq_some_of_getD_ok h)
  by_cases hmem : parameterDBName ∈ ret.resultColumns
  · left
    split at hfind <;> simp_all
  · right
    split at hfind <;> simp_all

end Key

/-- A lone list parameter always makes a lookup. -/
theorem buildGroupedManySpec_list {g : Generator ε} {query : Query}
    {arg ret : QueryValue} {lookup : Option GroupedManySpec}
    (h : buildGroupedManySpec g query arg ret = .ok lookup) {param : Parameter}
    (hparam : query.params = [param])
    (harray : isOneDimensionalArray param.column = true) :
    ∃ spec, lookup = some spec ∧ param.column.name ≠ "" ∧ g.goType param.column ≠ "" ∧
      spec.parameterDBName = param.column.name ∧
      ∃ key, groupedManyResultKey g query.name ret param.column.name spec.elementType =
        .ok key ∧ spec.lookupDBName = key.2.1 := by
  simp only [buildGroupedManySpec, hparam, harray, Bool.not_true, Bool.false_eq_true,
    if_false] at h
  split at h
  · cases h
  rename_i hname
  split at h
  · rename_i elementType helement
    have htyp : g.goType param.column ≠ "" := by
      intro hnil
      rw [hnil] at helement
      cases helement
    split at h
    · obtain ⟨parameterField, -, h⟩ := bind_eq_ok.mp h
      obtain ⟨key, hkey, h⟩ := bind_eq_ok.mp h
      cases h
      exact ⟨_, rfl, hname, htyp, rfl, key, hkey, rfl⟩
    · split at h
      · obtain ⟨parameterField, -, h⟩ := bind_eq_ok.mp h
        obtain ⟨key, hkey, h⟩ := bind_eq_ok.mp h
        cases h
        exact ⟨_, rfl, hname, htyp, rfl, key, hkey, rfl⟩
      · cases h
  · cases h

/-- Only a lone list parameter makes a lookup. -/
theorem buildGroupedManySpec_some {g : Generator ε} {query : Query}
    {arg ret : QueryValue} {spec : GroupedManySpec}
    (h : buildGroupedManySpec g query arg ret = .ok (some spec)) :
    ∃ param, query.params = [param] ∧ isOneDimensionalArray param.column = true := by
  unfold buildGroupedManySpec at h
  split at h
  · rename_i param hparam
    dsimp only at h
    split at h
    · cases h
    rename_i harray
    exact ⟨param, hparam, by simpa using harray⟩
  · cases h

end Build

end PgMesh.Plugin
