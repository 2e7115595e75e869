import PgMesh.Plugin.Independence

/-!
# What the resolver and the sqlc call read

The resolver gets the shard key that the wrapper embeds; the sqlc call gets the
values of expressions over the wrapper.  The two agree when every operand that
is a SQL parameter is sent from the field of the shard key that it names.
-/

namespace PgMesh.Plugin

open PgMesh.Foundation

variable {ν ε : Type}

/--
What a call sends for each SQL parameter.  A grouped call sends it for each
item, and a list lookup sends the value that the item adds to the list.
-/
def GeneratedQuery.sentFor (query : GeneratedQuery) (wrapper : ShardArgWrapper)
    (arg : WrapperValue ν) : List (Option (GoValue ν)) :=
  match query.route, query.shardMode, query.groupedMany with
  | some route, .groupedMany, some spec => [some ((lookupTarget route spec).eval arg)]
  | _, _, _ => query.sent wrapper arg

/--
The operands that are SQL parameters, and only they, are sent from the shard
key, each of them as the parameter with its column name.
-/
structure KeyMatches (ν : Type) (names : List String) (query : GeneratedQuery)
    (route : ShardRoute) (wrapper : ShardArgWrapper) : Prop where
  named : ∀ operand ∈ route.operands, operand.external = false →
    operand.dbName ≠ "" → operand.dbName ∈ names
  sent : ∀ arg : WrapperValue ν, arg.HasType (declared route wrapper) →
    ∀ operand ∈ route.operands, operand.external = false →
      ∀ i : Nat, names[i]? = some operand.dbName →
        (query.sentFor wrapper arg)[i]? = some (some (arg.shardKey operand.fieldName))
  routingOnly : ∀ arg arg' : WrapperValue ν, arg.fields = arg'.fields →
    (∀ operand ∈ route.operands, operand.external = false →
      arg.shardKey operand.fieldName = arg'.shardKey operand.fieldName) →
    query.sentFor wrapper arg = query.sentFor wrapper arg'

def NeverDrifts (ν : Type) (names : List String) (query : GeneratedQuery) : Prop :=
  ∃ route wrapper, query.route = some route ∧ query.shardArgs = some wrapper ∧
    KeyMatches ν names query route wrapper

/-! ## Expressions -/

/-- The column and the shard-key field of every operand that is a SQL parameter. -/
def ShardRoute.bound (route : ShardRoute) : List (String × String) :=
  (route.operands.filter (!·.external)).map fun operand =>
    (operand.dbName, operand.fieldName)

theorem mem_bound {route : ShardRoute} {dbName fieldName : String} :
    (dbName, fieldName) ∈ route.bound ↔ ∃ operand ∈ route.operands,
      operand.external = false ∧ operand.dbName = dbName ∧
        operand.fieldName = fieldName := by
  simp [ShardRoute.bound, and_assoc]

/-- The parameters are sent from the given expressions. -/
structure Reads (query : GeneratedQuery) (route : ShardRoute)
    (wrapper : ShardArgWrapper) (exprs : List ArgExpr) : Prop where
  route_eq : query.route = some route
  wrapper_eq : query.shardArgs = some wrapper
  sent_eq : ∀ (ν : Type) (arg : WrapperValue ν),
    query.sentFor wrapper arg = (exprs.map (ArgExpr.eval arg)).map some
  nodup : ((declared route wrapper).map Prod.fst).Nodup
  typed : ∀ e ∈ exprs, e ∈ (declared route wrapper).map Prod.fst
  bound : ∀ name, ArgExpr.shardKey name ∈ exprs → name ∈ route.bound.map Prod.snd

/-- The parameter of each bound column is sent from its field of the shard key. -/
def ReadsKey (bound : List (String × String)) (names : List String)
    (exprs : List ArgExpr) : Prop :=
  ∀ entry ∈ bound, ∀ i : Nat, names[i]? = some entry.1 →
    exprs[i]? = some (.shardKey entry.2)

section Reads

variable {query : GeneratedQuery} {route : ShardRoute} {wrapper : ShardArgWrapper}
  {exprs : List ArgExpr} {names : List String}

/-- Two fields of the wrapper can be given different values. -/
theorem exists_arg_of_ne [Nontrivial ν] {fields : GoMap ArgExpr String}
    (hfields : (fields.map Prod.fst).Nodup) {e e' : ArgExpr} (hne : e ≠ e')
    (he : e ∈ fields.map Prod.fst) (he' : e' ∈ fields.map Prod.fst) :
    ∃ arg : WrapperValue ν, arg.HasType fields ∧ e.eval arg ≠ e'.eval arg := by
  obtain ⟨a, b, hab⟩ := exists_pair_ne ν
  obtain ⟨⟨e, t⟩, ht, rfl⟩ := List.mem_map.mp he
  obtain ⟨⟨e', t'⟩, ht', rfl⟩ := List.mem_map.mp he'
  have hdistinct : List.Nodup [e, e'] := by simpa using hne
  have htyped : ∀ entry ∈ [e, e'].zip [t, t'], entry ∈ fields := by simpa using ⟨ht, ht'⟩
  have hvalues : [(⟨t, a⟩ : GoValue ν), ⟨t', b⟩].map GoValue.typ = [t, t'] := rfl
  obtain ⟨arg, htype, harg⟩ := exists_arg_of_nodup hfields hdistinct rfl htyped hvalues
  refine ⟨arg, htype, fun hsame => hab ?_⟩
  simp only [List.map_cons, List.map_nil, List.cons.injEq, and_true] at harg
  rw [harg.1, harg.2] at hsame
  exact congrArg GoValue.value hsame

theorem exists_typed_arg [Nonempty ν] {fields : GoMap ArgExpr String}
    (hfields : (fields.map Prod.fst).Nodup) :
    ∃ arg : WrapperValue ν, arg.HasType fields := by
  have htyped : ∀ entry ∈ ([] : List ArgExpr).zip ([] : List String), entry ∈ fields := by
    simp
  have hvalues : ([] : List (GoValue ν)).map GoValue.typ = [] := rfl
  obtain ⟨arg, htype, -⟩ := exists_arg_of_nodup hfields .nil rfl htyped hvalues
  exact ⟨arg, htype⟩

theorem mem_declared_of_bound {dbName fieldName : String}
    (h : (dbName, fieldName) ∈ route.bound) :
    ArgExpr.shardKey fieldName ∈ (declared route wrapper).map Prod.fst := by
  obtain ⟨operand, hoperand, -, -, rfl⟩ := mem_bound.mp h
  refine List.mem_map.mpr ⟨(.shardKey operand.fieldName, operand.typ), ?_, rfl⟩
  exact List.mem_append_left _ (List.mem_map.mpr ⟨operand, hoperand, rfl⟩)

theorem Reads.neverDrifts_iff [Nontrivial ν] (h : Reads query route wrapper exprs)
    (hnamed : ∀ entry ∈ route.bound, entry.1 ≠ "" → entry.1 ∈ names) :
    NeverDrifts ν names query ↔ ReadsKey route.bound names exprs := by
  constructor
  · rintro ⟨route', wrapper', hroute', hwrapper', hmatches⟩
    cases hroute'.symm.trans h.route_eq
    cases hwrapper'.symm.trans h.wrapper_eq
    rintro ⟨dbName, fieldName⟩ hentry i hname
    obtain ⟨operand, hoperand, hexternal, rfl, rfl⟩ := mem_bound.mp hentry
    have hsent : ∀ arg : WrapperValue ν, arg.HasType (declared route wrapper) →
        exprs[i]?.map (ArgExpr.eval arg) = some (arg.shardKey operand.fieldName) := by
      intro arg htype
      have hvalue := hmatches.sent arg htype operand hoperand hexternal i hname
      rw [h.sent_eq, List.getElem?_map, List.getElem?_map] at hvalue
      obtain ⟨value, hvalue, hsome⟩ := Option.map_eq_some_iff.mp hvalue
      rw [hvalue, hsome]
    cases hexpr : exprs[i]? with
    | none =>
        obtain ⟨arg, htype⟩ := exists_typed_arg (ν := ν) h.nodup
        have hvalue := hsent arg htype
        rw [hexpr] at hvalue
        cases hvalue
    | some e =>
        by_contra hne
        have hne' : e ≠ .shardKey operand.fieldName := fun heq => hne (congrArg some heq)
        obtain ⟨arg, htype, hvalues⟩ := exists_arg_of_ne (ν := ν) h.nodup hne'
          (h.typed e (List.mem_of_getElem? hexpr)) (mem_declared_of_bound hentry)
        have hvalue := hsent arg htype
        rw [hexpr] at hvalue
        exact hvalues (Option.some.inj hvalue)
  · intro hkey
    refine ⟨route, wrapper, h.route_eq, h.wrapper_eq, ?_, ?_, ?_⟩
    · intro operand hoperand hexternal
      exact hnamed (operand.dbName, operand.fieldName)
        (mem_bound.mpr ⟨operand, hoperand, hexternal, rfl, rfl⟩)
    · intro arg _ operand hoperand hexternal i hname
      have hexpr := hkey (operand.dbName, operand.fieldName)
        (mem_bound.mpr ⟨operand, hoperand, hexternal, rfl, rfl⟩) i hname
      rw [h.sent_eq, List.getElem?_map, List.getElem?_map, hexpr]
      rfl
    · intro arg arg' hfields hshardKey
      rw [h.sent_eq, h.sent_eq]
      congr 1
      apply List.map_congr_left
      intro e he
      cases e with
      | field name => exact congrFun hfields name
      | shardKey name =>
          obtain ⟨⟨dbName, _⟩, hentry, rfl⟩ := List.mem_map.mp (h.bound name he)
          obtain ⟨operand, hoperand, hexternal, -, rfl⟩ := mem_bound.mp hentry
          exact hshardKey operand hoperand hexternal

theorem sentFor_eq_sent (h : query.shardMode = .groupedMany → query.groupedMany = none)
    (wrapper : ShardArgWrapper) (arg : WrapperValue ν) :
    query.sentFor wrapper arg = query.sent wrapper arg := by
  unfold GeneratedQuery.sentFor
  split
  · rename_i hmode hspec
    rw [h hmode] at hspec
    cases hspec
  · rfl

theorem exists_of_mem_sentTargets {emit : Bool} {fields : List GoField} {e : ArgExpr}
    (h : e ∈ sentTargets emit route fields) : ∃ field ∈ fields, e = wrapTarget route field := by
  cases emit with
  | false =>
      obtain ⟨field, hfield, rfl⟩ := List.mem_map.mp h
      exact ⟨field, hfield, rfl⟩
  | true =>
      obtain ⟨field, hfield, rfl⟩ := List.mem_map.mp h
      have hget : GoMap.get? (expressionMap
          (fields.map fun field => (field.name, wrapTarget route field))) field.name =
            some (emittedTarget route fields field.name) :=
        expressionMap_eq_some hfield
      unfold expressionMap at hget
      rw [GoMap.get?_foldl_set, GoMap.get?_nil, Option.or_none] at hget
      obtain ⟨source, hsource, heq⟩ :=
        List.mem_map.mp (List.mem_reverse.mp (GoMap.mem_of_get? hget))
      exact ⟨source, hsource, (congrArg Prod.snd heq).symm⟩

/-- An emitted field is read from the last parameter of its name. -/
theorem emittedTarget_eq {fields : List GoField} {name dbName : String}
    (h : GoMap.get? (fields.map fun field => (field.name, field.dbName)).reverse name =
      some dbName) :
    emittedTarget route fields name = wrapTarget route ⟨name, dbName, ""⟩ := by
  have hmap : (fields.map fun field => (field.name, wrapTarget route field)).reverse =
      (fields.map fun field => (field.name, field.dbName)).reverse.map
        fun entry => (entry.1, wrapTarget route ⟨entry.1, entry.2, ""⟩) := by
    rw [← List.map_reverse, ← List.map_reverse, List.map_map]
    rfl
  unfold emittedTarget expressionMap
  rw [GoMap.get?_foldl_set, GoMap.get?_nil, Option.or_none, hmap,
    GoMap.get?_map (fun name dbName => wrapTarget route ⟨name, dbName, ""⟩), h]
  rfl

end Reads

end PgMesh.Plugin
