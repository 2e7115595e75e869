import PgMesh.Plugin.Aliases
import PgMesh.Plugin.SharedRoutes
import Mathlib.Data.List.Flatten
import Mathlib.Data.List.Perm.Subperm

/-!
# Exported declarations

The generated package declares fixed names, names that the user chooses, and
names derived from routes, store groups, queries and types of sqlc.
`collectStoreGroups` adds the derived names one by one to a map of what is
declared already, and `validateSQLCTypeAliases` compares the aliases with a map
of its own.
-/

namespace PgMesh.Plugin

open PgMesh.Foundation

/-! ## Names -/

def storeReaderInterfaceName (group : String) : String := group ++ "Reader"

def storeWriterInterfaceName (group : String) : String := group ++ "Writer"

def storeFactoryOptionName (group : String) : String := "With" ++ group ++ "Factory"

def copyBatchOptionName (query : String) : String := "With" ++ query ++ "Batching"

def copyAsyncMethodName (query : String) : String := query ++ "Async"

def copyFlushMethodName (query : String) : String := "Flush" ++ query

structure StoreGroup where
  name : String
  queries : List StoreQuery

def StoreGroup.declarations (group : StoreGroup) : List String :=
  [group.name, storeReaderInterfaceName group.name, storeWriterInterfaceName group.name,
    storeFactoryOptionName group.name]

/-! The declarations of one query: its batching option, its alias and its wrapper. -/

def StoreQuery.copyOption (query : StoreQuery) : List String :=
  if query.command = cmdCopyFrom then [copyBatchOptionName query.methodName] else []

def StoreQuery.paramAlias (query : StoreQuery) : List String :=
  query.storeParamAlias.toList.map StoreParamAlias.name

def StoreQuery.wrapper (query : StoreQuery) : List String :=
  query.shardArgs.toList.map ShardArgWrapper.name

def StoreQuery.declarations (query : StoreQuery) : List String :=
  query.copyOption ++ query.paramAlias ++ query.wrapper

/-! ## Collecting groups -/

def generatedDeclarations (opts : StoreOptions) : GoMap String String :=
  [(opts.constructorName, "constructor"), (opts.resolverInterfaceName, "resolver interface"),
    (opts.shardedConstructor, "sharded constructor"),
    (opts.storeInterfaceName, "store interface")].foldl
    (fun declarations entry => GoMap.set declarations entry.1 entry.2)
    (fixedGeneratedDeclarations (opts.internalImportPath = ""))

/-- The map `byName`: the queries of each store, in order. -/
def queriesByStore (queries : List StoreQuery) : GoMap String (List StoreQuery) :=
  queries.foldl
    (fun byName query =>
      if query.store = "" then byName
      else GoMap.set byName query.store (GoMap.getD byName query.store [] ++ [query]))
    []

def storeGroups (queries : List StoreQuery) : List StoreGroup :=
  ((queriesByStore queries).map fun entry => ⟨entry.1, entry.2⟩).insertionSort
    (·.name ≤ ·.name)

def shardKeyDeclaration (route : String) : String := "shard key for route " ++ route

section Collect

variable {ε : Type}

/-- A name that must not be declared already; `conflict` is the error if it is. -/
def declare (conflict : String → GoError ε) (declarations : GoMap String String)
    (name description : String) : Except (GoError ε) (GoMap String String) :=
  match GoMap.get? declarations name with
  | some previous => .error (conflict previous)
  | none => .ok (GoMap.set declarations name description)

def declareRoutes : List StoreQuery → GoMap String String →
    Except (GoError ε) (GoMap String String)
  | [], declarations => .ok declarations
  | query :: queries, declarations =>
      match query.route with
      | none => declareRoutes queries declarations
      | some route =>
          match GoMap.get? declarations route.methodName with
          | some previous =>
              if previous = shardKeyDeclaration route.name then
                declareRoutes queries declarations
              else
                .error (.errorf
                  "shard route %s generates key type %s that conflicts with %s"
                  [.text route.name, .text route.methodName, .text previous])
          | none =>
              declareRoutes queries
                (GoMap.set declarations route.methodName (shardKeyDeclaration route.name))

def declareGroup (declarations : GoMap String String) (group : StoreGroup) :
    Except (GoError ε) (GoMap String String) :=
  group.declarations.foldlM
    (fun declarations name =>
      declare
        (fun previous =>
          .errorf "store group %s generates declaration %s that conflicts with %s"
            [.text group.name, .text name, .text previous])
        declarations name ("store group " ++ group.name))
    declarations

/-- The methods of a copy query must not be queries of their own. -/
def checkCopyMethods (queries : List StoreQuery) (query : StoreQuery) :
    Except (GoError ε) Unit :=
  [copyAsyncMethodName query.methodName, copyFlushMethodName query.methodName].forM
    fun method =>
      match queries.find? (·.methodName == method) with
      | some candidate =>
          .error (.errorf "copy query %s generates method %s that conflicts with query %s"
            [.text query.methodName, .text method, .text candidate.methodName])
      | none => .ok ()

def declareCopyOption (queries : List StoreQuery) (declarations : GoMap String String)
    (query : StoreQuery) : Except (GoError ε) (GoMap String String) :=
  if query.command = cmdCopyFrom then do
    checkCopyMethods queries query
    declare
      (fun previous =>
        .errorf "copy query %s generates declaration %s that conflicts with %s"
          [.text query.methodName, .text (copyBatchOptionName query.methodName),
            .text previous])
      declarations (copyBatchOptionName query.methodName)
      ("copy batch option for " ++ query.methodName)
  else .ok declarations

def declareParamAlias (declarations : GoMap String String) (query : StoreQuery) :
    Except (GoError ε) (GoMap String String) :=
  match query.storeParamAlias with
  | some paramAlias =>
      declare
        (fun previous =>
          .errorf "query %s generates store parameter alias %s that conflicts with %s"
            [.text query.methodName, .text paramAlias.name, .text previous])
        declarations paramAlias.name ("store parameter alias for " ++ query.methodName)
  | none => .ok declarations

def declareWrapper (declarations : GoMap String String) (query : StoreQuery) :
    Except (GoError ε) (GoMap String String) :=
  match query.shardArgs with
  | some wrapper =>
      declare
        (fun previous =>
          .errorf "query %s generates shard parameter wrapper %s that conflicts with %s"
            [.text query.methodName, .text wrapper.name, .text previous])
        declarations wrapper.name ("shard parameter wrapper for " ++ query.methodName)
  | none => .ok declarations

def declareQuery (queries : List StoreQuery) (declarations : GoMap String String)
    (query : StoreQuery) : Except (GoError ε) (GoMap String String) := do
  let declarations ← declareCopyOption queries declarations query
  let declarations ← declareParamAlias declarations query
  declareWrapper declarations query

def collectStoreGroups (queries : List StoreQuery) (opts : StoreOptions) :
    Except (GoError ε) (List StoreGroup) := do
  let groups := storeGroups queries
  let declarations ← declareRoutes queries (generatedDeclarations opts)
  let declarations ← groups.foldlM declareGroup declarations
  let _ ← queries.foldlM (declareQuery queries) declarations
  return groups

/-! ## Validating aliases -/

def StoreGroup.entries (group : StoreGroup) : List (String × String) :=
  group.declarations.map fun name => (name, "store group " ++ group.name)

def StoreQuery.entries (query : StoreQuery) : List (String × String) :=
  query.copyOption.map (fun name => (name, "copy batch option for " ++ query.methodName)) ++
    query.route.toList.map
      (fun route => (route.methodName, shardKeyDeclaration route.name)) ++
    query.paramAlias.map
      (fun name => (name, "store parameter alias for " ++ query.methodName)) ++
    query.wrapper.map
      (fun name => (name, "shard parameter wrapper for " ++ query.methodName))

/-- The map `declarations` that the aliases are compared with. -/
def aliasDeclarations (opts : StoreOptions) (queries : List StoreQuery)
    (groups : List StoreGroup) : GoMap String String :=
  (groups.flatMap StoreGroup.entries ++ queries.flatMap StoreQuery.entries).foldl
    (fun declarations entry => GoMap.set declarations entry.1 entry.2)
    (generatedDeclarations opts)

def checkAliases (declarations : GoMap String String) : List String → Except (GoError ε) Unit
  | [] => .ok ()
  | name :: aliases =>
      match GoMap.get? declarations name with
      | some declaration =>
          .error (.errorf ("export_sqlc_types cannot alias sqlc type %s because it " ++
            "conflicts with %s") [.text name, .text declaration])
      | none => checkAliases declarations aliases

def validateSQLCTypeAliases (opts : StoreOptions) (queries : List StoreQuery)
    (groups : List StoreGroup) (aliases : List String) : Except (GoError ε) Unit :=
  if aliases.length = 0 then .ok ()
  else checkAliases (aliasDeclarations opts queries groups) aliases

end Collect

/-! ## What is emitted -/

def hasShardOperations (queries : List StoreQuery) : Bool :=
  queries.any fun query => query.shardMode ≠ .none

/-- The exported declarations of the file `interfaces`. -/
def interfacesDeclarations (opts : StoreOptions) (sharded : Bool) (aliases : List String)
    (routes : List ShardRoute) : List String :=
  aliases ++ [opts.storeInterfaceName] ++
    if sharded then routes.map ShardRoute.methodName ++ [opts.resolverInterfaceName] else []

def fixedStoreDeclarations : List String :=
  ["QueryOption", "ReadFromPrimary", "WithTx", "StoreOption", "WithTracerProvider",
    "WithMeterProvider", "WithLogger", "Topology", "SingletonOption", "WithDatabaseName",
    "WithReadReplicas", "WithWriteMirrors", "Singleton"]

/-- The exported declarations of the main file. -/
def storeDeclarations (opts : StoreOptions) : List String :=
  fixedStoreDeclarations ++ [opts.constructorName]

/-- The exported declarations of the file of a group. -/
def groupDeclarations (group : StoreGroup) : List String :=
  group.queries.flatMap StoreQuery.paramAlias ++ group.queries.flatMap StoreQuery.wrapper ++
    group.queries.flatMap StoreQuery.copyOption ++
    [storeReaderInterfaceName group.name, storeWriterInterfaceName group.name, group.name,
      storeFactoryOptionName group.name]

def fixedShardedDeclarations : List String :=
  ["ShardedOption", "WithReplicaSet", "WithVirtualShardMapping"]

/-- The exported declarations of the file `sharded`. -/
def shardedDeclarations (opts : StoreOptions) (sharded : Bool) : List String :=
  if sharded then fixedShardedDeclarations ++ [opts.shardedConstructor] else []

/-- The exported package-level identifiers of all generated files. -/
def exportedDeclarations (opts : StoreOptions) (queries : List StoreQuery)
    (routes : List ShardRoute) (groups : List StoreGroup) (aliases : List String) :
    List String :=
  interfacesDeclarations opts (hasShardOperations queries) aliases routes ++
    storeDeclarations opts ++ groups.flatMap groupDeclarations ++
    shardedDeclarations opts (hasShardOperations queries)

/-! ## Names that are added to a map -/

/-- A step that adds new names, all of them different, to what is declared. -/
structure Declared (declarations declarations' : GoMap String String)
    (names : List String) : Prop where
  nodup : names.Nodup
  fresh : ∀ name ∈ names, GoMap.get? declarations name = none
  keys : ∀ name, (GoMap.get? declarations' name).isSome = true ↔
    (GoMap.get? declarations name).isSome = true ∨ name ∈ names

namespace Declared

variable {d₁ d₂ d₃ : GoMap String String} {names names' : List String}

theorem refl (d : GoMap String String) : Declared d d [] := ⟨.nil, by simp, by simp⟩

theorem set {name : String} (h : GoMap.get? d₁ name = none) (description : String) :
    Declared d₁ (GoMap.set d₁ name description) [name] where
  nodup := List.nodup_singleton name
  fresh := by simpa using h
  keys other := by
    rw [GoMap.isSome_get?_set, Bool.or_eq_true, beq_iff_eq, List.mem_singleton, or_comm]
    exact or_congr_right eq_comm

theorem trans (h : Declared d₁ d₂ names) (h' : Declared d₂ d₃ names') :
    Declared d₁ d₃ (names ++ names') where
  nodup := by
    refine List.nodup_append'.mpr ⟨h.nodup, h'.nodup, ?_⟩
    intro name hname hname'
    have hsome := (h.keys name).mpr (.inr hname)
    rw [h'.fresh name hname'] at hsome
    cases hsome
  fresh name hname := by
    rcases List.mem_append.mp hname with hname | hname
    · exact h.fresh name hname
    · have hnone := h'.fresh name hname
      cases hget : GoMap.get? d₁ name with
      | none => rfl
      | some description =>
          have hsome := (h.keys name).mpr (.inl (by rw [hget]; rfl))
          rw [hnone] at hsome
          cases hsome
  keys name := by rw [h'.keys, h.keys, List.mem_append, or_assoc]

/-- The names of a step are not among those declared before it. -/
theorem not_mem {name : String} (h : Declared d₁ d₂ names)
    (hname : (GoMap.get? d₁ name).isSome = true) : name ∉ names := by
  intro hmem
  rw [h.fresh name hmem] at hname
  cases hname

/-- A loop of such steps. -/
theorem foldlM {ε ι : Type} {step : GoMap String String → ι →
      Except (GoError ε) (GoMap String String)} {added : ι → List String}
    (hstep : ∀ d item d', step d item = .ok d' → Declared d d' (added item))
    {items : List ι} (h : items.foldlM step d₁ = .ok d₂) :
    Declared d₁ d₂ (items.flatMap added) := by
  induction items generalizing d₁ with
  | nil =>
      cases h
      exact refl _
  | cons item items ih =>
      rw [List.foldlM_cons] at h
      obtain ⟨d, hitem, h⟩ := bind_eq_ok.mp h
      exact (hstep d₁ item d hitem).trans (ih h)

end Declared

section Steps

variable {ε : Type} {d d' : GoMap String String}

theorem declare_ok {conflict : String → GoError ε} {name description : String}
    (h : declare conflict d name description = .ok d') : Declared d d' [name] := by
  unfold declare at h
  split at h
  case h_1 => cases h
  case h_2 hnone =>
    cases h
    exact .set hnone description

theorem declareGroup_ok {group : StoreGroup}
    (h : declareGroup (ε := ε) d group = .ok d') : Declared d d' group.declarations := by
  have hloop : Declared d d' (group.declarations.flatMap fun name => [name]) :=
    Declared.foldlM (fun _ _ _ hname => declare_ok hname) h
  simpa using hloop

theorem declareCopyOption_ok {queries : List StoreQuery} {query : StoreQuery}
    (h : declareCopyOption (ε := ε) queries d query = .ok d') :
    Declared d d' query.copyOption := by
  unfold declareCopyOption at h
  unfold StoreQuery.copyOption
  split at h
  case isTrue hcopy =>
    obtain ⟨-, -, hdeclare⟩ := bind_eq_ok.mp h
    rw [if_pos hcopy]
    exact declare_ok hdeclare
  case isFalse hcopy =>
    cases h
    rw [if_neg hcopy]
    exact .refl _

theorem declareParamAlias_ok {query : StoreQuery}
    (h : declareParamAlias (ε := ε) d query = .ok d') : Declared d d' query.paramAlias := by
  unfold declareParamAlias at h
  unfold StoreQuery.paramAlias
  split at h
  case h_1 hsome =>
    rw [hsome]
    exact declare_ok h
  case h_2 hnone =>
    rw [hnone]
    cases h
    exact .refl _

theorem declareWrapper_ok {query : StoreQuery}
    (h : declareWrapper (ε := ε) d query = .ok d') : Declared d d' query.wrapper := by
  unfold declareWrapper at h
  unfold StoreQuery.wrapper
  split at h
  case h_1 hsome =>
    rw [hsome]
    exact declare_ok h
  case h_2 hnone =>
    rw [hnone]
    cases h
    exact .refl _

theorem declareQuery_ok {queries : List StoreQuery} {query : StoreQuery}
    (h : declareQuery (ε := ε) queries d query = .ok d') :
    Declared d d' query.declarations := by
  obtain ⟨d₁, hcopy, h⟩ := bind_eq_ok.mp h
  obtain ⟨d₂, halias, hwrapper⟩ := bind_eq_ok.mp h
  exact ((declareCopyOption_ok hcopy).trans (declareParamAlias_ok halias)).trans
    (declareWrapper_ok hwrapper)

/--
The loop over the routes adds the name of every route once.  A name that is there
already must have been added by this loop, which `earlier` records.
-/
theorem declareRoutes_ok {queries : List StoreQuery} {earlier : List String}
    (hearlier : ∀ name route, GoMap.get? d name = some (shardKeyDeclaration route) →
      name ∈ earlier)
    (h : declareRoutes (ε := ε) queries d = .ok d') :
    ∃ added, Declared d d' added ∧
      ∀ query ∈ queries, ∀ route, query.route = some route →
        route.methodName ∈ earlier ++ added := by
  induction queries generalizing d earlier with
  | nil =>
      cases h
      exact ⟨[], .refl _, by simp⟩
  | cons query queries ih =>
      rw [declareRoutes] at h
      cases hroute : query.route with
      | none =>
          rw [hroute] at h
          obtain ⟨added, hadded, hall⟩ := ih hearlier h
          refine ⟨added, hadded, List.forall_mem_cons.mpr ⟨?_, hall⟩⟩
          intro route hsome
          rw [hroute] at hsome
          cases hsome
      | some route =>
          rw [hroute] at h
          dsimp only at h
          split at h
          case h_1 previous hprevious =>
            split at h
            case isTrue hsame =>
              obtain ⟨added, hadded, hall⟩ := ih hearlier h
              refine ⟨added, hadded, List.forall_mem_cons.mpr ⟨?_, hall⟩⟩
              intro route' hsome
              cases hroute.symm.trans hsome
              rw [hsame] at hprevious
              exact List.mem_append_left _ (hearlier _ _ hprevious)
            case isFalse => cases h
          case h_2 hnone =>
            have hnext : ∀ name route', GoMap.get? (GoMap.set d route.methodName
                (shardKeyDeclaration route.name)) name = some (shardKeyDeclaration route') →
                name ∈ earlier ++ [route.methodName] := by
              intro name route' hget
              rw [GoMap.get?_set] at hget
              split at hget
              case isTrue hname => simp [hname]
              case isFalse => exact List.mem_append_left _ (hearlier name route' hget)
            obtain ⟨added, hadded, hall⟩ := ih hnext h
            refine ⟨[route.methodName] ++ added, (Declared.set hnone _).trans hadded, ?_⟩
            rw [← List.append_assoc]
            refine List.forall_mem_cons.mpr ⟨?_, hall⟩
            intro route' hsome
            cases hroute.symm.trans hsome
            simp

end Steps

/-! ## What is declared first -/

section Generated

variable {opts : StoreOptions}

theorem isSome_generatedDeclarations (name : String) :
    (GoMap.get? (generatedDeclarations opts) name).isSome = true ↔
      name ∈ (fixedGeneratedDeclarations (opts.internalImportPath = "")).map Prod.fst ++
        (publicNames opts).map Prod.snd := by
  simp only [generatedDeclarations, List.foldl_cons, List.foldl_nil, GoMap.isSome_get?_set,
    Bool.or_eq_true, beq_iff_eq, List.mem_append, ← GoMap.isSome_get?, publicNames,
    List.map_cons, List.map_nil, List.mem_cons, List.not_mem_nil, or_false]
  grind

theorem hasPrefix_shardKeyDeclaration (route : String) :
    hasPrefix (shardKeyDeclaration route) "shard " = true := by
  have hstart : "shard ".toList <+: "shard key for route ".toList :=
    ⟨"key for route ".toList, by simp⟩
  have hwhole : "shard ".toList <+: ("shard key for route " ++ route).toList := by
    rw [String.toList_append]
    exact hstart.trans (List.prefix_append _ _)
  exact hasPrefix_iff.mpr hwhole

theorem fixedGeneratedDeclarations_subset (includeSQLC : Bool) :
    fixedGeneratedDeclarations includeSQLC ⊆ fixedGeneratedDeclarations true := by
  cases includeSQLC with
  | false =>
      rw [fixedGeneratedDeclarations, fixedGeneratedDeclarations, if_neg (by simp),
        List.append_nil]
      exact List.subset_append_left _ _
  | true => exact List.Subset.refl _

/-- No route is described by what is declared first. -/
theorem generatedDeclarations_ne (name route : String) :
    GoMap.get? (generatedDeclarations opts) name ≠ some (shardKeyDeclaration route) := by
  have hfixed : ((fixedGeneratedDeclarations true).all fun entry =>
      !hasPrefix entry.2 "shard ") = true := by decide +kernel
  have hne : ∀ {description : String}, hasPrefix description "shard " = false →
      some description ≠ some (shardKeyDeclaration route) := by
    intro description h heq
    rw [Option.some.inj heq, hasPrefix_shardKeyDeclaration] at h
    cases h
  simp only [generatedDeclarations, List.foldl_cons, List.foldl_nil, GoMap.get?_set]
  split
  · exact hne (by simp [hasPrefix, List.isPrefixOf])
  split
  · exact hne (by simp [hasPrefix, List.isPrefixOf])
  split
  · exact hne (by simp [hasPrefix, List.isPrefixOf])
  split
  · exact hne (by simp [hasPrefix, List.isPrefixOf])
  · intro hget
    have hentry := List.all_eq_true.mp hfixed _
      (fixedGeneratedDeclarations_subset _ (GoMap.mem_of_get? hget))
    rw [hasPrefix_shardKeyDeclaration] at hentry
    cases hentry

theorem nodup_generated [Unicode] (h : opts.Accepted) :
    ((fixedGeneratedDeclarations (opts.internalImportPath = "")).map Prod.fst ++
      (publicNames opts).map Prod.snd).Nodup := by
  have hfixed : ∀ includeSQLC,
      ((fixedGeneratedDeclarations includeSQLC).map Prod.fst).Nodup := by
    intro includeSQLC
    cases includeSQLC <;> simp [fixedGeneratedDeclarations]
  refine List.nodup_append'.mpr ⟨hfixed _, h.names_nodup, ?_⟩
  intro name hname hpublic
  have hnone := h.names_fresh name hpublic
  rw [← GoMap.isSome_get?, hnone] at hname
  cases hname

end Generated

/-! ## Groups -/

theorem queriesByStore_perm (queries : List StoreQuery) :
    ((queriesByStore queries).flatMap Prod.snd).Perm
      (queries.filter fun query => query.store ≠ "") := by
  suffices hloop : ∀ (queries : List StoreQuery) (byName : GoMap String (List StoreQuery)),
      ((queries.foldl (fun byName query =>
        if query.store = "" then byName
        else GoMap.set byName query.store (GoMap.getD byName query.store [] ++ [query]))
        byName).flatMap Prod.snd).Perm
      (byName.flatMap Prod.snd ++ queries.filter fun query => query.store ≠ "") by
    exact hloop queries []
  intro queries
  induction queries with
  | nil => simp
  | cons query queries ih =>
      intro byName
      rw [List.foldl_cons]
      by_cases hstore : query.store = ""
      · simpa [hstore] using ih byName
      · rw [if_neg hstore, List.filter_cons_of_pos (by simpa using hstore)]
        refine (ih _).trans ?_
        rw [List.append_cons (byName.flatMap Prod.snd)]
        exact (GoMap.flatMap_set_append_perm byName query.store query).append_right _

theorem storeGroups_perm (queries : List StoreQuery) :
    ((storeGroups queries).flatMap StoreGroup.queries).Perm
      (queries.filter fun query => query.store ≠ "") := by
  refine List.Perm.trans ?_ (queriesByStore_perm queries)
  refine ((List.perm_insertionSort _ _).flatMap_right _).trans ?_
  rw [List.flatMap_map]

theorem groupDeclarations_perm (group : StoreGroup) :
    (groupDeclarations group).Perm
      (group.declarations ++ group.queries.flatMap StoreQuery.declarations) := by
  have hqueries : (group.queries.flatMap StoreQuery.declarations).Perm
      (group.queries.flatMap StoreQuery.copyOption ++
        group.queries.flatMap StoreQuery.paramAlias ++
        group.queries.flatMap StoreQuery.wrapper) :=
    ((List.flatMap_append_perm group.queries _ _).symm.trans
      ((List.flatMap_append_perm group.queries _ _).symm.append_right _))
  refine List.Perm.trans ?_ (hqueries.symm.append_left group.declarations)
  rw [List.perm_iff_count]
  intro name
  simp only [groupDeclarations, StoreGroup.declarations, List.count_append, List.count_cons,
    List.count_nil]
  omega

/-- The files of the groups declare names of groups and of queries. -/
theorem groups_subperm (queries : List StoreQuery) :
    ((storeGroups queries).flatMap groupDeclarations).Subperm
      ((storeGroups queries).flatMap StoreGroup.declarations ++
        queries.flatMap StoreQuery.declarations) := by
  have hsplit : ((storeGroups queries).flatMap groupDeclarations).Perm
      ((storeGroups queries).flatMap StoreGroup.declarations ++
        ((storeGroups queries).flatMap StoreGroup.queries).flatMap StoreQuery.declarations) := by
    rw [List.flatMap_assoc]
    exact (List.Perm.flatMap_left _ fun group _ => groupDeclarations_perm group).trans
      (List.flatMap_append_perm _ _ _).symm
  have hqueries : (((storeGroups queries).flatMap StoreGroup.queries).flatMap
      StoreQuery.declarations).Subperm (queries.flatMap StoreQuery.declarations) :=
    ((storeGroups_perm queries).flatMap_right _).subperm.trans
      (List.filter_sublist.flatMap _).subperm
  exact hsplit.subperm.trans ((List.Subperm.refl _).append hqueries)

/-! ## Aliases -/

section Aliases

variable {ε : Type} {opts : StoreOptions} {queries : List StoreQuery}
  {groups : List StoreGroup}

/-- The aliases are compared with everything else that is declared. -/
theorem isSome_aliasDeclarations {name : String}
    (h : (GoMap.get? (generatedDeclarations opts) name).isSome = true ∨
      name ∈ groups.flatMap StoreGroup.declarations ∨
      name ∈ queries.flatMap StoreQuery.declarations ∨
      ∃ query ∈ queries, ∃ route, query.route = some route ∧ route.methodName = name) :
    (GoMap.get? (aliasDeclarations opts queries groups) name).isSome = true := by
  have hgroup : ∀ group : StoreGroup, group.entries.map Prod.fst = group.declarations := by
    intro group
    simp [StoreGroup.entries, Function.comp_def]
  have hquery : ∀ query : StoreQuery, query.entries.map Prod.fst =
      query.copyOption ++ query.route.toList.map ShardRoute.methodName ++ query.paramAlias ++
        query.wrapper := by
    intro query
    simp [StoreQuery.entries, Function.comp_def]
  rw [aliasDeclarations, GoMap.get?_foldl_set, Option.isSome_or, Bool.or_eq_true,
    GoMap.isSome_get?, List.map_reverse, List.mem_reverse, List.map_append, List.mem_append,
    List.map_flatMap, List.map_flatMap]
  simp only [hgroup, hquery]
  rcases h with h | h | h | ⟨query, hmem, route, hroute, rfl⟩
  · exact .inr h
  · exact .inl (.inl h)
  · obtain ⟨query, hmem, hname⟩ := List.mem_flatMap.mp h
    refine .inl (.inr (List.mem_flatMap.mpr ⟨query, hmem, ?_⟩))
    simp only [StoreQuery.declarations, List.mem_append] at hname ⊢
    rcases hname with (h | h) | h
    · exact .inl (.inl (.inl h))
    · exact .inl (.inr h)
    · exact .inr h
  · refine .inl (.inr (List.mem_flatMap.mpr ⟨query, hmem, ?_⟩))
    simp [hroute]

theorem checkAliases_ok {declarations : GoMap String String} {aliases : List String}
    (h : checkAliases (ε := ε) declarations aliases = .ok ()) :
    ∀ name ∈ aliases, GoMap.get? declarations name = none := by
  induction aliases with
  | nil => simp
  | cons name aliases ih =>
      rw [checkAliases] at h
      split at h
      case h_1 => cases h
      case h_2 hnone => exact List.forall_mem_cons.mpr ⟨hnone, ih h⟩

theorem validateSQLCTypeAliases_ok {aliases : List String}
    (h : validateSQLCTypeAliases (ε := ε) opts queries groups aliases = .ok ()) :
    ∀ name ∈ aliases, GoMap.get? (aliasDeclarations opts queries groups) name = none := by
  unfold validateSQLCTypeAliases at h
  split at h
  case isTrue hempty =>
    rw [List.length_eq_zero_iff] at hempty
    simp [hempty]
  case isFalse => exact checkAliases_ok h

end Aliases

/-! ## Distinct names -/

/-- The fixed declarations that are emitted are reserved. -/
theorem fixed_subperm (includeSQLC : Bool) :
    (fixedStoreDeclarations ++ fixedShardedDeclarations).Subperm
      ((fixedGeneratedDeclarations includeSQLC).map Prod.fst) := by
  have hperm : (fixedStoreDeclarations ++ fixedShardedDeclarations).Perm
      ((fixedGeneratedDeclarations false).map Prod.fst) := by decide +kernel
  refine hperm.subperm.trans (List.Sublist.subperm (List.Sublist.map _ ?_))
  rw [fixedGeneratedDeclarations, fixedGeneratedDeclarations, if_neg (by simp),
    List.append_nil]
  exact List.sublist_append_left _ _

section Distinct

variable {ε : Type} {opts : StoreOptions} {queries : List StoreQuery}
  {routes : List ShardRoute} {groups : List StoreGroup} {aliases : List String}

/-- Everything that is checked, in the order in which it is declared. -/
def checkedDeclarations (opts : StoreOptions) (queries : List StoreQuery)
    (routes : List ShardRoute) (groups : List StoreGroup) (aliases : List String) :
    List String :=
  aliases ++
    (((fixedGeneratedDeclarations (opts.internalImportPath = "")).map Prod.fst ++
      (publicNames opts).map Prod.snd) ++
    (routes.map ShardRoute.methodName ++
      (groups.flatMap StoreGroup.declarations ++ queries.flatMap StoreQuery.declarations)))

theorem count_exportedDeclarations_le (name : String) :
    (exportedDeclarations opts queries routes (storeGroups queries) aliases).count name ≤
      (checkedDeclarations opts queries routes (storeGroups queries) aliases).count name := by
  have hfixed := (fixed_subperm (opts.internalImportPath = "")).count_le name
  have hgroups := (groups_subperm queries).count_le name
  simp only [exportedDeclarations, checkedDeclarations, interfacesDeclarations,
    storeDeclarations, shardedDeclarations, publicNames, List.count_append, List.map_cons,
    List.map_nil, List.count_cons, List.count_nil] at hfixed hgroups ⊢
  cases hasShardOperations queries with
  | true =>
      simp only [if_true, List.count_append, List.count_cons, List.count_nil]
      omega
  | false =>
      simp only [Bool.false_eq_true, if_false, List.count_nil]
      omega

theorem collectStoreGroups_ok (h : collectStoreGroups (ε := ε) queries opts = .ok groups) :
    groups = storeGroups queries ∧ ∃ added declarations,
      Declared (generatedDeclarations opts) declarations added ∧
      (∀ query ∈ queries, ∀ route, query.route = some route → route.methodName ∈ added) ∧
      ∃ declarations', Declared declarations declarations'
        (groups.flatMap StoreGroup.declarations ++ queries.flatMap StoreQuery.declarations) := by
  obtain ⟨declarations, hroutes, h⟩ := bind_eq_ok.mp h
  obtain ⟨grouped, hgroups, h⟩ := bind_eq_ok.mp h
  obtain ⟨declarations', hqueries, h⟩ := bind_eq_ok.mp h
  cases h
  have hfixed : ∀ name route,
      GoMap.get? (generatedDeclarations opts) name = some (shardKeyDeclaration route) →
        name ∈ ([] : List String) :=
    fun name route hget => absurd hget (generatedDeclarations_ne name route)
  obtain ⟨added, hadded, hall⟩ := declareRoutes_ok hfixed hroutes
  refine ⟨rfl, added, declarations, hadded, hall, declarations', ?_⟩
  exact (Declared.foldlM (fun _ _ _ h => declareGroup_ok h) hgroups).trans
    (Declared.foldlM (fun _ _ _ h => declareQuery_ok h) hqueries)

theorem nodup_checkedDeclarations [Unicode] (hopts : opts.Accepted)
    (hroutes : collectShardRoutes (ε := ε) (queries.map StoreQuery.toGeneratedQuery) =
      .ok routes)
    (hgroups : collectStoreGroups (ε := ε) queries opts = .ok groups)
    (hnodup : aliases.Nodup)
    (haliases : validateSQLCTypeAliases (ε := ε) opts queries groups aliases = .ok ()) :
    (checkedDeclarations opts queries routes groups aliases).Nodup := by
  obtain ⟨-, added, declarations, hadded, hall, declarations', hderived⟩ :=
    collectStoreGroups_ok hgroups
  obtain ⟨hdistinct, hnames⟩ := collectShardRoutes_names hroutes
  have hrouted : ∀ name, name ∈ routes.map ShardRoute.methodName ↔
      ∃ query ∈ queries, ∃ route, query.route = some route ∧ route.methodName = name := by
    intro name
    rw [hnames]
    simp
  have hkeys : ∀ name ∈ routes.map ShardRoute.methodName, name ∈ added := by
    intro name hname
    obtain ⟨query, hquery, route, hroute, rfl⟩ := (hrouted name).mp hname
    exact hall query hquery route hroute
  refine List.nodup_append'.mpr ⟨hnodup, List.nodup_append'.mpr ⟨nodup_generated hopts,
    List.nodup_append'.mpr ⟨hdistinct, hderived.nodup, ?_⟩, ?_⟩, ?_⟩
  · intro name hroute hname
    exact hderived.not_mem ((hadded.keys name).mpr (.inr (hkeys name hroute))) hname
  · intro name hgenerated hname
    have hsome := (isSome_generatedDeclarations name).mpr hgenerated
    rcases List.mem_append.mp hname with hroute | hname
    · exact hadded.not_mem hsome (hkeys name hroute)
    · exact hderived.not_mem ((hadded.keys name).mpr (.inl hsome)) hname
  · intro name halias hname
    have hnone := validateSQLCTypeAliases_ok haliases name halias
    have hsome : (GoMap.get? (aliasDeclarations opts queries groups) name).isSome = true := by
      apply isSome_aliasDeclarations
      simp only [List.mem_append] at hname
      rcases hname with hgenerated | hroute | hgroup | hquery
      · exact .inl ((isSome_generatedDeclarations name).mpr (List.mem_append.mpr hgenerated))
      · exact .inr (.inr (.inr ((hrouted name).mp hroute)))
      · exact .inr (.inl hgroup)
      · exact .inr (.inr (.inl hquery))
    rw [hnone] at hsome
    cases hsome

/-- A query with a route makes the package sharded. -/
theorem hasShardOperations_of_route [Unicode] {g : Generator ε} {input : List Query}
    (hbuild : buildStoreQueries opts g input = .ok queries) {query : StoreQuery}
    (hquery : query ∈ queries) {route : ShardRoute} (hroute : query.route = some route) :
    hasShardOperations queries = true := by
  obtain ⟨outs, houts, h⟩ := bind_eq_ok.mp hbuild
  cases h
  obtain ⟨out, hout, rfl⟩ := List.mem_map.mp hquery
  obtain ⟨hsame, hmode⟩ : (aliasParams opts out).route = out.route ∧
      (aliasParams opts out).shardMode = out.shardMode := by
    obtain h | ⟨strct, -, -, -, h⟩ := aliasParams_cases opts out <;> rw [h] <;> exact ⟨rfl, rfl⟩
  rw [hsame] at hroute
  obtain ⟨_, -, built, hbuilt, hwrap⟩ := exists_of_mem_buildQueries houts hout
  obtain ⟨⟨names, hnames⟩, -, -, hmodes⟩ := buildQuery_signature hbuilt
  have hrouted : out.route ≠ none := by simp [hroute]
  have hwrapped := (wrapQuery_signature hwrap hrouted hnames).2.1
  obtain ⟨builtRoute, hbuiltRoute, -⟩ := wrapQuery_ok hwrap hrouted
  rcases hmodes with ⟨hnone, -⟩ | ⟨-, hmodes⟩
  · rw [hbuiltRoute] at hnone
    cases hnone
  · refine List.any_eq_true.mpr ⟨_, hquery, ?_⟩
    rw [hmode, hwrapped, decide_eq_true_eq]
    intro hmode
    rw [hmode] at hmodes
    simp at hmodes

/--
The exported identifiers of the generated package are different, and the shard
key of a route is among them once.
-/
theorem exported_declarations_are_distinct [Unicode]
    {parseError : String → Option (GoError ε)} {catalog : Catalog}
    (hopts : validateOptions (ε := ε) opts = .ok ())
    (hroutes : collectShardRoutes (ε := ε) (queries.map StoreQuery.toGeneratedQuery) =
      .ok routes)
    (hgroups : collectStoreGroups (ε := ε) queries opts = .ok groups)
    (haliases : collectSQLCTypeAliases parseError opts queries catalog = .ok aliases)
    (hvalid : validateSQLCTypeAliases (ε := ε) opts queries groups aliases = .ok ()) :
    (exportedDeclarations opts queries routes groups aliases).Nodup ∧
      ∀ (g : Generator ε) (input : List Query), buildStoreQueries opts g input = .ok queries →
        ∀ query ∈ queries, ∀ route, query.route = some route →
          (exportedDeclarations opts queries routes groups aliases).count
            route.methodName = 1 := by
  have hchecked := nodup_checkedDeclarations (validateOptions_ok hopts) hroutes hgroups
    (nodup_aliases haliases) hvalid
  obtain ⟨rfl, -⟩ := collectStoreGroups_ok hgroups
  have hnodup :
      (exportedDeclarations opts queries routes (storeGroups queries) aliases).Nodup := by
    rw [List.nodup_iff_count_le_one] at hchecked ⊢
    exact fun name => (count_exportedDeclarations_le name).trans (hchecked name)
  refine ⟨hnodup, fun g input hbuild query hquery route hroute => ?_⟩
  refine List.count_eq_one_of_mem hnodup ?_
  have hkey : route.methodName ∈ routes.map ShardRoute.methodName := by
    rw [(collectShardRoutes_names hroutes).2]
    exact ⟨query.toGeneratedQuery, List.mem_map.mpr ⟨query, hquery, rfl⟩, route, hroute, rfl⟩
  have hsharded := hasShardOperations_of_route hbuild hquery hroute
  simp only [exportedDeclarations, interfacesDeclarations, hsharded, if_true, List.mem_append]
  exact .inl (.inl (.inl (.inr (.inl hkey))))

end Distinct

local instance sharedUnicode : Unicode := Unicode.ascii

/-- Two queries with one route. -/
theorem exported_declarations_are_distinct_account :
    ∃ queries routes groups,
      buildStoreQueries moodsOptions byAccount [getAccount, dropAccount] = .ok queries ∧
      (queries.filterMap (·.route)).map ShardRoute.methodName = ["AccountKey", "AccountKey"] ∧
      (exportedDeclarations moodsOptions queries routes groups ["GetAccountRow"]).Nodup ∧
      (exportedDeclarations moodsOptions queries routes groups ["GetAccountRow"]).count
        "AccountKey" = 1 := by
  obtain ⟨queries, routes, groups, hbuild, hnames, hroutes, hgroups, haliases, hvalid⟩ :
      ∃ queries routes groups,
        buildStoreQueries moodsOptions byAccount [getAccount, dropAccount] = .ok queries ∧
        (queries.filterMap (·.route)).map ShardRoute.methodName =
          ["AccountKey", "AccountKey"] ∧
        collectShardRoutes (ε := Unit) (queries.map StoreQuery.toGeneratedQuery) =
          .ok routes ∧
        collectStoreGroups (ε := Unit) queries moodsOptions = .ok groups ∧
        collectSQLCTypeAliases (fun _ => none) moodsOptions queries ⟨"public", []⟩ =
          .ok (ε := GoError Unit) ["GetAccountRow"] ∧
        validateSQLCTypeAliases (ε := Unit) moodsOptions queries groups ["GetAccountRow"] =
          .ok () :=
    ⟨_, _, _, rfl, rfl, rfl, rfl, rfl, rfl⟩
  obtain ⟨hnodup, honce⟩ :=
    exported_declarations_are_distinct rfl hroutes hgroups haliases hvalid
  refine ⟨queries, routes, groups, hbuild, hnames, hnodup, ?_⟩
  have hmem : "AccountKey" ∈ (queries.filterMap (·.route)).map ShardRoute.methodName := by
    simp [hnames]
  obtain ⟨route, hroute, hname⟩ := List.mem_map.mp hmem
  obtain ⟨query, hquery, hroute⟩ := List.mem_filterMap.mp hroute
  exact hname ▸ honce byAccount _ hbuild query hquery route hroute

end PgMesh.Plugin
