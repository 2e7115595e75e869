import PgMesh.Plugin.Wrapper

/-!
# What a routed call sends to SQL

A value of the wrapper structure gives every SQL parameter the value of one
field, of the shard key or of the wrapper itself.  A caller can choose the SQL
parameters of a query independently when no two of them are read from one field.
-/

namespace PgMesh.Plugin

open PgMesh.Foundation

variable {ν ε : Type}

/-- A Go value with its static type. -/
structure GoValue (ν : Type) where
  typ : String
  value : ν

/-- A value of the wrapper: the fields of its shard key and its own fields. -/
structure WrapperValue (ν : Type) where
  shardKey : String → GoValue ν
  fields : String → GoValue ν

def ArgExpr.eval (arg : WrapperValue ν) : ArgExpr → GoValue ν
  | .shardKey name => arg.shardKey name
  | .field name => arg.fields name

/-- The fields that the shard key structure and the wrapper declare. -/
def declared (route : ShardRoute) (wrapper : ShardArgWrapper) :
    GoMap ArgExpr String :=
  route.operands.map (fun operand => (.shardKey operand.fieldName, operand.typ)) ++
    wrapper.fields.map fun field => (.field field.name, field.typ)

def WrapperValue.HasType (arg : WrapperValue ν) (fields : GoMap ArgExpr String) :
    Prop :=
  ∀ entry ∈ fields, (entry.1.eval arg).typ = entry.2

/-- The entries of the structure that `sqlcParams()` returns. -/
def ShardArgWrapper.sqlcParams (wrapper : ShardArgWrapper) (arg : WrapperValue ν) :
    List (String × Option (GoValue ν)) :=
  match wrapper.sqlcArg.structType with
  | none => []
  | some strct => strct.fields.map fun field =>
      (field.name,
        (GoMap.get? wrapper.sqlcFieldExpressions field.name).map (ArgExpr.eval arg))

/-- The SQL parameters that an argument of the call stands for. -/
def CallArg.sent (wrapper : ShardArgWrapper) (arg : WrapperValue ν) :
    CallArg → List (Option (GoValue ν))
  | .param _ => []
  | .sqlcParams => (wrapper.sqlcParams arg).map Prod.snd
  | .expr e => [some (e.eval arg)]

def GeneratedQuery.sent (query : GeneratedQuery) (wrapper : ShardArgWrapper)
    (arg : WrapperValue ν) : List (Option (GoValue ν)) :=
  query.callArgs.flatMap (CallArg.sent wrapper arg)

/--
For every assignment of values to the SQL parameters, which have the given types,
there is a value of the wrapper from which the generated call sends exactly them.
-/
def Suppliable (ν : Type) (types : List String) (query : GeneratedQuery) : Prop :=
  ∃ route wrapper, query.route = some route ∧ query.shardArgs = some wrapper ∧
    ∀ values : List (GoValue ν), values.map GoValue.typ = types →
      ∃ arg : WrapperValue ν, arg.HasType (declared route wrapper) ∧
        query.sent wrapper arg = values.map some

/-! ## Distinct fields -/

/-- If all values can be chosen, the expressions are distinct. -/
theorem nodup_of_supplied [Nontrivial ν] {exprs : List ArgExpr} {types : List String}
    (hlength : exprs.length = types.length)
    (h : ∀ values : List (GoValue ν), values.map GoValue.typ = types →
      ∃ arg : WrapperValue ν, exprs.map (ArgExpr.eval arg) = values) :
    exprs.Nodup := by
  obtain ⟨a, b, hab⟩ := exists_pair_ne ν
  rw [List.nodup_iff_getElem?_ne_getElem?]
  intro i j hij hj hsame
  -- The parameter at `i` gets one value and all others the other one.
  let choice : String × Nat → GoValue ν := fun entry =>
    ⟨entry.1, if entry.2 = i then a else b⟩
  have htypes : (types.zipIdx.map choice).map GoValue.typ = types := by
    rw [List.map_map]
    exact List.zipIdx_map_fst 0 types
  obtain ⟨arg, harg⟩ := h _ htypes
  have hi : i < types.length := by omega
  have hj : j < types.length := by omega
  have hvalue : (types.zipIdx.map choice)[i]? = (types.zipIdx.map choice)[j]? := by
    rw [← harg, List.getElem?_map, List.getElem?_map, hsame]
  simp only [List.getElem?_map, List.getElem?_zipIdx, List.getElem?_eq_getElem hi,
    List.getElem?_eq_getElem hj, Option.map_some, choice, Option.some.injEq,
    GoValue.mk.injEq, Nat.zero_add] at hvalue
  have hji : j ≠ i := by omega
  exact hab (by simpa [hji] using hvalue.2)

/-- Distinct expressions of declared fields can be given any values. -/
theorem exists_arg_of_nodup [Nonempty ν] {fields : GoMap ArgExpr String}
    {exprs : List ArgExpr} {types : List String}
    (hfields : (fields.map Prod.fst).Nodup) (hexprs : exprs.Nodup)
    (hlength : exprs.length = types.length)
    (htyped : ∀ entry ∈ exprs.zip types, entry ∈ fields)
    {values : List (GoValue ν)} (hvalues : values.map GoValue.typ = types) :
    ∃ arg : WrapperValue ν, arg.HasType fields ∧
      exprs.map (ArgExpr.eval arg) = values := by
  have hsame : exprs.length = values.length := by
    rw [hlength, ← hvalues, List.length_map]
  let supplied : GoMap ArgExpr (GoValue ν) := exprs.zip values
  let choose (e : ArgExpr) : GoValue ν := (GoMap.get? supplied e).getD
    ⟨(GoMap.get? fields e).getD "", Classical.arbitrary ν⟩
  let arg : WrapperValue ν :=
    ⟨fun name => choose (.shardKey name), fun name => choose (.field name)⟩
  have heval (e : ArgExpr) : e.eval arg = choose e := by cases e <;> rfl
  have hkeys : (supplied.map Prod.fst).Nodup := by
    rw [List.map_fst_zip hsame.le]
    exact hexprs
  refine ⟨arg, ?_, ?_⟩
  · rintro ⟨e, t⟩ hentry
    have hdeclared := GoMap.get?_of_mem hfields hentry
    rw [heval]
    cases hget : GoMap.get? supplied e with
    | none => simp [choose, hget, hdeclared]
    | some v =>
        have hmem : (e, v.typ) ∈ exprs.zip types := by
          rw [← hvalues, List.zip_map_right]
          exact List.mem_map.mpr ⟨(e, v), GoMap.mem_of_get? hget, rfl⟩
        have htyp := GoMap.get?_of_mem hfields (htyped _ hmem)
        rw [hdeclared] at htyp
        simpa [choose, hget] using (Option.some.inj htyp).symm
  · have hpairs : supplied.map (fun entry => entry.1.eval arg) =
        supplied.map Prod.snd := by
      apply List.map_congr_left
      rintro ⟨e, v⟩ hentry
      rw [heval]
      simp [choose, GoMap.get?_of_mem hkeys hentry]
    have hexprs : supplied.map Prod.fst = exprs := List.map_fst_zip hsame.le
    rw [List.map_snd_zip hsame.ge] at hpairs
    rw [← hpairs, ← hexprs, List.map_map]
    rfl

/-- The wrapper gives the parameters of a call from the expressions `exprs`. -/
structure SendsFrom (query : GeneratedQuery) (route : ShardRoute)
    (wrapper : ShardArgWrapper) (exprs : List ArgExpr) : Prop where
  route_eq : query.route = some route
  wrapper_eq : query.shardArgs = some wrapper
  sent_eq : ∀ (ν : Type) (arg : WrapperValue ν),
    query.sent wrapper arg = (exprs.map (ArgExpr.eval arg)).map some

theorem SendsFrom.suppliable_iff [Nontrivial ν] {query : GeneratedQuery}
    {route : ShardRoute} {wrapper : ShardArgWrapper} {exprs : List ArgExpr}
    {types : List String} (hsends : SendsFrom query route wrapper exprs)
    (hfields : ((declared route wrapper).map Prod.fst).Nodup)
    (hlength : exprs.length = types.length)
    (htyped : exprs.Nodup → ∀ entry ∈ exprs.zip types, entry ∈ declared route wrapper) :
    Suppliable ν types query ↔ exprs.Nodup := by
  constructor
  · rintro ⟨route', wrapper', -, hwrapper', hall⟩
    have hsame := hwrapper'.symm.trans hsends.wrapper_eq
    cases hsame
    apply nodup_of_supplied (ν := ν) hlength
    intro values hvalues
    obtain ⟨arg, -, hsent⟩ := hall values hvalues
    rw [hsends.sent_eq] at hsent
    exact ⟨arg, List.map_injective_iff.mpr (Option.some_injective _) hsent⟩
  · intro hnodup
    refine ⟨route, wrapper, hsends.route_eq, hsends.wrapper_eq, ?_⟩
    intro values hvalues
    obtain ⟨arg, htype, harg⟩ :=
      exists_arg_of_nodup hfields hnodup hlength (htyped hnodup) hvalues
    refine ⟨arg, htype, ?_⟩
    rw [hsends.sent_eq, harg]

end PgMesh.Plugin
