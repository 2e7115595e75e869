import PgMesh.Plugin.Agreement
import Mathlib.Tactic.FinCases

/-!
# Shared routes

Queries with the same route share its shard key.  `collectShardRoutes` keeps the
first route of each name and compares every later one with it.  It compares the
columns of the operands as well as the fields of the key, so it refuses some
queries whose keys agree.
-/

namespace PgMesh.Plugin

open PgMesh.Foundation

variable {ε : Type}

def sameRouteSignature (left right : ShardRoute) : Bool :=
  left.operands.length == right.operands.length &&
    (left.operands.zip right.operands).all fun (l, r) =>
      l.dbName == r.dbName && l.fieldName == r.fieldName && l.typ == r.typ

def routeSignature (route : ShardRoute) : String :=
  "(" ++ ", ".intercalate
    (route.operands.map fun operand => operand.fieldName ++ " " ++ operand.typ) ++ ")"

/-- The loop that fills `byName`. -/
def collectRoutes : List GeneratedQuery → GoMap String ShardRoute →
    Except (GoError ε) (GoMap String ShardRoute)
  | [], byName => .ok byName
  | query :: queries, byName =>
      match query.route with
      | none => collectRoutes queries byName
      | some route =>
          match GoMap.get? byName route.methodName with
          | some previous =>
              if previous.name ≠ route.name then
                .error (.errorf
                  "shard routes %s and %s generate the same resolver method %s"
                  [.text previous.name, .text route.name, .text route.methodName])
              else if !sameRouteSignature previous route then
                .error (.errorf ("shard key %s is inconsistent between queries %s " ++
                  "and %s: expected %s, got %s")
                  [.text route.methodName, .text previous.queryName,
                    .text route.queryName, .text (routeSignature previous),
                    .text (routeSignature route)])
              else collectRoutes queries byName
          | none => collectRoutes queries (GoMap.set byName route.methodName route)

def collectShardRoutes (queries : List GeneratedQuery) :
    Except (GoError ε) (List ShardRoute) := do
  let byName ← collectRoutes queries []
  return (byName.map Prod.snd).insertionSort (·.methodName ≤ ·.methodName)

/-! ## Signatures -/

/-- The fields of the shard key, in order. -/
def ShardRoute.key (route : ShardRoute) : List (String × String) :=
  route.operands.map fun operand => (operand.fieldName, operand.typ)

def ShardRoute.columns (route : ShardRoute) : List String :=
  route.operands.map RouteOperand.dbName

theorem sameRouteSignature_iff (left right : ShardRoute) :
    sameRouteSignature left right = true ↔
      left.key = right.key ∧ left.columns = right.columns := by
  unfold sameRouteSignature ShardRoute.key ShardRoute.columns
  generalize left.operands = l
  generalize right.operands = r
  induction l generalizing r with
  | nil => cases r <;> simp
  | cons operand l ih =>
      cases r with
      | nil => simp
      | cons operand' r =>
          have hrest := ih r
          simp only [Bool.and_eq_true, beq_iff_eq] at hrest
          simp only [List.length_cons, List.zip_cons_cons, List.all_cons, Bool.and_eq_true,
            beq_iff_eq, Nat.add_right_cancel_iff, List.map_cons, List.cons.injEq,
            Prod.mk.injEq]
          tauto

/-! ## One step -/

section Step

variable {query : GeneratedQuery} {queries : List GeneratedQuery}
  {byName : GoMap String ShardRoute} {route previous : ShardRoute}

theorem collectRoutes_unrouted (h : query.route = none) :
    collectRoutes (ε := ε) (query :: queries) byName = collectRoutes queries byName := by
  simp only [collectRoutes, h]

theorem collectRoutes_new (h : query.route = some route)
    (hnew : GoMap.get? byName route.methodName = none) :
    collectRoutes (ε := ε) (query :: queries) byName =
      collectRoutes queries (GoMap.set byName route.methodName route) := by
  simp only [collectRoutes, h, hnew]

theorem collectRoutes_known (h : query.route = some route)
    (hknown : GoMap.get? byName route.methodName = some previous)
    (hname : previous.name = route.name) :
    (∃ routes, collectRoutes (ε := ε) (query :: queries) byName = .ok routes) ↔
      sameRouteSignature previous route = true ∧
        ∃ routes, collectRoutes (ε := ε) queries byName = .ok routes := by
  simp only [collectRoutes, h, hknown, if_neg (not_not.mpr hname)]
  cases sameRouteSignature previous route with
  | true => simp only [Bool.not_true, Bool.false_eq_true, if_false, true_and]
  | false =>
      simp only [Bool.not_false, if_true, Bool.false_eq_true, false_and, iff_false]
      rintro ⟨routes, hroutes⟩
      cases hroutes

end Step

/-! ## One route name -/

/-- All the routes have one name and one resolver method. -/
def OneRoute (name methodName : String) (queries : List GeneratedQuery) : Prop :=
  ∀ query ∈ queries, ∀ route, query.route = some route →
    route.name = name ∧ route.methodName = methodName

/-- Once the route is known, every later query is compared with it. -/
theorem collectRoutes_ok_iff {name methodName : String} {queries : List GeneratedQuery}
    (hone : OneRoute name methodName queries) {byName : GoMap String ShardRoute}
    {previous : ShardRoute} (hname : previous.name = name)
    (hprevious : GoMap.get? byName methodName = some previous) :
    (∃ routes, collectRoutes (ε := ε) queries byName = .ok routes) ↔
      ∀ query ∈ queries, ∀ route, query.route = some route →
        sameRouteSignature previous route = true := by
  induction queries with
  | nil => simp [collectRoutes]
  | cons query queries ih =>
      have hrest := ih fun q hq => hone q (List.mem_cons_of_mem _ hq)
      rw [List.forall_mem_cons, ← hrest]
      cases hroute : query.route with
      | none => simp [collectRoutes_unrouted hroute]
      | some route =>
          obtain ⟨hrouteName, hmethod⟩ := hone query List.mem_cons_self route hroute
          rw [← hmethod] at hprevious
          rw [collectRoutes_known hroute hprevious (hname.trans hrouteName.symm)]
          simp

theorem collectShardRoutes_ok {queries : List GeneratedQuery} :
    (∃ routes, collectShardRoutes (ε := ε) queries = .ok routes) ↔
      ∃ byName, collectRoutes (ε := ε) queries [] = .ok byName := by
  constructor
  · rintro ⟨routes, hroutes⟩
    obtain ⟨byName, hbyName, -⟩ := bind_eq_ok.mp hroutes
    exact ⟨byName, hbyName⟩
  · rintro ⟨byName, hbyName⟩
    exact ⟨_, bind_eq_ok.mpr ⟨byName, hbyName, rfl⟩⟩

/-- The map holds every route under its method name. -/
structure ByMethodName (byName : GoMap String ShardRoute) : Prop where
  nodup : (byName.map Prod.fst).Nodup
  key : ∀ entry ∈ byName, entry.2.methodName = entry.1

theorem ByMethodName.set {byName : GoMap String ShardRoute} (h : ByMethodName byName)
    (route : ShardRoute) : ByMethodName (GoMap.set byName route.methodName route) where
  nodup := GoMap.nodup_keys_set h.nodup _ _
  key entry hentry := by
    have hget := GoMap.get?_of_mem (GoMap.nodup_keys_set h.nodup route.methodName route) hentry
    rw [GoMap.get?_set] at hget
    split at hget
    case isTrue hname => rw [← Option.some.inj hget, hname]
    case isFalse => exact h.key entry (GoMap.mem_of_get? hget)

theorem collectRoutes_byMethodName {queries : List GeneratedQuery}
    {byName byName' : GoMap String ShardRoute} (hbyName : ByMethodName byName)
    (h : collectRoutes (ε := ε) queries byName = .ok byName') :
    ByMethodName byName' ∧ ∀ name, name ∈ byName'.map Prod.fst ↔
      name ∈ byName.map Prod.fst ∨
        ∃ query ∈ queries, ∃ route, query.route = some route ∧ route.methodName = name := by
  induction queries generalizing byName with
  | nil =>
      cases h
      exact ⟨hbyName, by simp⟩
  | cons query queries ih =>
      cases hroute : query.route with
      | none =>
          rw [collectRoutes_unrouted hroute] at h
          obtain ⟨hresult, hkeys⟩ := ih hbyName h
          refine ⟨hresult, fun name => ?_⟩
          rw [hkeys]
          simp [hroute]
      | some route =>
          have hexists : ∀ name, (∃ q ∈ query :: queries, ∃ r, q.route = some r ∧
              r.methodName = name) ↔ name = route.methodName ∨
                ∃ q ∈ queries, ∃ r, q.route = some r ∧ r.methodName = name := by
            intro name
            simp [hroute, eq_comm]
          cases hget : GoMap.get? byName route.methodName with
          | none =>
              rw [collectRoutes_new hroute hget] at h
              obtain ⟨hresult, hkeys⟩ := ih (hbyName.set route) h
              refine ⟨hresult, fun name => ?_⟩
              rw [hkeys, hexists, GoMap.mem_keys_set, or_assoc, or_left_comm]
          | some previous =>
              have hrest : collectRoutes (ε := ε) queries byName = .ok byName' := by
                simp only [collectRoutes, hroute, hget] at h
                split at h
                · cases h
                · split at h
                  · cases h
                  · exact h
              obtain ⟨hresult, hkeys⟩ := ih hbyName hrest
              refine ⟨hresult, fun name => ?_⟩
              rw [hkeys, hexists]
              have hknown : route.methodName ∈ byName.map Prod.fst := by
                rw [← GoMap.isSome_get?, hget]
                rfl
              constructor
              · exact Or.imp_right .inr
              · rintro (hname | rfl | hname)
                · exact .inl hname
                · exact .inl hknown
                · exact .inr hname

/-- The collected routes have different names, one for every routed query. -/
theorem collectShardRoutes_names {queries : List GeneratedQuery} {routes : List ShardRoute}
    (h : collectShardRoutes (ε := ε) queries = .ok routes) :
    (routes.map ShardRoute.methodName).Nodup ∧
      ∀ name, name ∈ routes.map ShardRoute.methodName ↔
        ∃ query ∈ queries, ∃ route, query.route = some route ∧ route.methodName = name := by
  obtain ⟨byName, hbyName, h⟩ := bind_eq_ok.mp h
  cases h
  have hempty : ByMethodName [] := ⟨.nil, by simp⟩
  obtain ⟨hresult, hkeys⟩ := collectRoutes_byMethodName hempty hbyName
  have hperm : (((byName.map Prod.snd).insertionSort (·.methodName ≤ ·.methodName)).map
      ShardRoute.methodName).Perm (byName.map Prod.fst) := by
    have hnames : (byName.map Prod.snd).map ShardRoute.methodName = byName.map Prod.fst := by
      rw [List.map_map]
      exact List.map_congr_left hresult.key
    rw [← hnames]
    exact (List.perm_insertionSort _ _).map _
  refine ⟨hperm.nodup_iff.mpr hresult.nodup, fun name => ?_⟩
  rw [hperm.mem_iff, hkeys]
  simp

/-- Two queries have the same shard key, in the same columns, if both are routed. -/
def SameRoute (query query' : GeneratedQuery) : Prop :=
  ∀ route route', query.route = some route → query'.route = some route' →
    route.key = route'.key ∧ route.columns = route'.columns

/-- Routes of one name are collected exactly when they all have one signature. -/
theorem collectShardRoutes_ok_iff {name methodName : String} {queries : List GeneratedQuery}
    (hone : OneRoute name methodName queries) :
    (∃ routes, collectShardRoutes (ε := ε) queries = .ok routes) ↔
      ∀ query ∈ queries, ∀ query' ∈ queries, SameRoute query query' := by
  rw [collectShardRoutes_ok]
  induction queries with
  | nil => simp [collectRoutes]
  | cons query queries ih =>
      have hone' : OneRoute name methodName queries :=
        fun q hq => hone q (List.mem_cons_of_mem _ hq)
      cases hroute : query.route with
      | none =>
          rw [collectRoutes_unrouted hroute, ih hone']
          constructor
          · intro hall q hq q' hq' r r' hr hr'
            rcases List.mem_cons.mp hq with rfl | hq
            · rw [hroute] at hr
              cases hr
            · rcases List.mem_cons.mp hq' with rfl | hq'
              · rw [hroute] at hr'
                cases hr'
              · exact hall q hq q' hq' r r' hr hr'
          · intro hall q hq q' hq'
            exact hall q (List.mem_cons_of_mem _ hq) q' (List.mem_cons_of_mem _ hq')
      | some route =>
          obtain ⟨hrouteName, hmethod⟩ := hone query List.mem_cons_self route hroute
          rw [collectRoutes_new hroute (GoMap.get?_nil _),
            collectRoutes_ok_iff hone' hrouteName
              (by rw [GoMap.get?_set, if_pos hmethod])]
          constructor
          · intro hsame
            have hfirst : ∀ q ∈ query :: queries, ∀ route', q.route = some route' →
                route.key = route'.key ∧ route.columns = route'.columns := by
              intro q hq route' hroute'
              rcases List.mem_cons.mp hq with rfl | hq
              · rw [hroute] at hroute'
                cases hroute'
                exact ⟨rfl, rfl⟩
              · exact (sameRouteSignature_iff _ _).mp (hsame q hq route' hroute')
            intro q hq q' hq' r r' hr hr'
            obtain ⟨hkey, hcolumns⟩ := hfirst q hq r hr
            obtain ⟨hkey', hcolumns'⟩ := hfirst q' hq' r' hr'
            exact ⟨hkey.symm.trans hkey', hcolumns.symm.trans hcolumns'⟩
          · intro hall q hq route' hroute'
            exact (sameRouteSignature_iff _ _).mpr (hall query List.mem_cons_self q
              (List.mem_cons_of_mem _ hq) route route' hroute hroute')

/-! ## Accepted queries -/

section Sharing

variable [Unicode]

/-- A query whose route of the given name is accepted. -/
structure Accepted (g : Generator ε) (name : String) where
  query : Query
  operands : List String
  arg : QueryValue
  ret : QueryValue
  lookup : Option GroupedManySpec
  resolved : ShardRoute
  arg_ok : buildQueryArg g query = .ok arg
  ret_ok : buildQueryReturn g query = .ok ret
  lookup_ok : buildLookup g query arg ret = .ok lookup
  resolved_ok : resolveShardRoute g query arg ⟨name, operands⟩ lookup = .ok resolved

/-- The route of an accepted query, with scalar operands in a list lookup. -/
def Accepted.route {g : Generator ε} {name : String} (q : Accepted g name) : ShardRoute :=
  match q.lookup with
  | none => q.resolved
  | some spec => scalarizeGroupedManyRoute q.resolved spec

/-- The route as it was before the parameters were wrapped. -/
def ShardRoute.withoutExpressions (route : ShardRoute) : ShardRoute :=
  { route with operands := route.operands.map fun operand => { operand with expression := "" } }

omit [Unicode] in
theorem ShardRoute.key_withoutExpressions (route : ShardRoute) :
    route.withoutExpressions.key = route.key := by
  simp [ShardRoute.key, ShardRoute.withoutExpressions]

omit [Unicode] in
theorem ShardRoute.columns_withoutExpressions (route : ShardRoute) :
    route.withoutExpressions.columns = route.columns := by
  simp [ShardRoute.columns, ShardRoute.withoutExpressions]

/-- In a list lookup the key of the result stands for the list parameter. -/
def standsFor (lookup : Option GroupedManySpec) (operand : String) : String :=
  match lookup with
  | none => operand
  | some spec => if operand = spec.lookupDBName then spec.parameterDBName else operand

/-- The SQL columns that the operands of the annotation stand for. -/
def Accepted.operandColumns {g : Generator ε} {name : String} (q : Accepted g name) :
    List String :=
  q.operands.map (standsFor q.lookup)

def KeysAgree {g : Generator ε} {name : String} (accepted : List (Accepted g name)) : Prop :=
  ∀ q ∈ accepted, ∀ q' ∈ accepted, q.route.key = q'.route.key

def ColumnsAgree {g : Generator ε} {name : String} (accepted : List (Accepted g name)) :
    Prop :=
  ∀ q ∈ accepted, ∀ q' ∈ accepted, q.operandColumns = q'.operandColumns

section Accepted

variable {g : Generator ε} {name : String}

theorem resolveOperand_standsFor {query : Query} {arg ret : QueryValue}
    {lookup : Option GroupedManySpec} (harg : buildQueryArg g query = .ok arg)
    (hlookup : buildLookup g query arg ret = .ok lookup) {dbName : String}
    {operand : RouteOperand}
    (h : resolveOperand g query arg lookup dbName = .ok operand) :
    operand.dbName = standsFor lookup dbName := by
  cases lookup with
  | none => exact resolveOperand_dbName h
  | some spec =>
      have hmany : query.cmd = cmdMany := by
        unfold buildLookup at hlookup
        split at hlookup
        · assumption
        · cases hlookup
      rw [buildLookup, if_pos hmany] at hlookup
      obtain ⟨param, hparam, harray⟩ := buildGroupedManySpec_some hlookup
      obtain ⟨spec', hspec, hname, -, hparameter, -⟩ :=
        buildGroupedManySpec_list hlookup hparam harray
      cases hspec
      obtain ⟨-, hlist⟩ := list_parameter harg hparam hname
      rw [← hparameter] at hlist
      unfold standsFor
      dsimp only
      rcases resolveOperand_lookup hlist h with ⟨-, hdbName, hkey⟩ |
        ⟨hexternal, -, -, hkey⟩
      · rw [hdbName]
        split
        · rfl
        · rename_i hother
          rcases hkey with hkey | hkey
          · exact hkey.symm
          · exact absurd hkey hother
      · rw [if_neg hkey]
        exact resolveOperand_external_dbName h hexternal

omit [Unicode] in
theorem columns_scalarize (route : ShardRoute) (spec : GroupedManySpec) :
    (scalarizeGroupedManyRoute route spec).columns = route.columns := by
  unfold ShardRoute.columns scalarizeGroupedManyRoute
  rw [List.map_map]
  apply List.map_congr_left
  intro operand _
  dsimp only [Function.comp]
  split <;> rfl

theorem Accepted.route_columns (q : Accepted g name) :
    q.route.columns = q.operandColumns := by
  have hroute : q.route.columns = q.resolved.columns := by
    unfold Accepted.route
    split
    · rfl
    · exact columns_scalarize _ _
  obtain ⟨hoperands, -⟩ := resolveShardRoute_ok q.resolved_ok
  rw [hroute, ShardRoute.columns, Accepted.operandColumns, ← List.forall₂_eq_eq_eq,
    List.forall₂_map_left_iff, List.forall₂_map_right_iff]
  apply List.Forall₂.flip
  exact hoperands.imp fun _ _ h => resolveOperand_standsFor q.arg_ok q.lookup_ok h

theorem Accepted.route_names (q : Accepted g name) :
    q.route.name = name ∧ q.route.methodName = routeMethodName name g.opts := by
  have hresolved := resolveShardRoute_names q.resolved_ok
  unfold Accepted.route
  split
  · exact hresolved
  · exact hresolved

/-- A generated query carries the route of an accepted one, however it is wrapped. -/
def Carries (query : GeneratedQuery) (q : Accepted g name) : Prop :=
  query.route.map ShardRoute.withoutExpressions = some q.route.withoutExpressions

theorem Carries.exists_route {query : GeneratedQuery} {q : Accepted g name}
    (h : Carries query q) :
    ∃ route, query.route = some route ∧ route.name = name ∧
      route.methodName = routeMethodName name g.opts ∧ route.key = q.route.key ∧
      route.columns = q.route.columns := by
  obtain ⟨route, hroute, hsame⟩ := Option.map_eq_some_iff.mp h
  obtain ⟨hname, hmethod⟩ := q.route_names
  refine ⟨route, hroute, ?_, ?_, ?_, ?_⟩
  · exact (congrArg ShardRoute.name hsame).trans hname
  · exact (congrArg ShardRoute.methodName hsame).trans hmethod
  · rw [← route.key_withoutExpressions, hsame, ShardRoute.key_withoutExpressions]
  · rw [← route.columns_withoutExpressions, hsame, ShardRoute.columns_withoutExpressions]

variable {accepted : List (Accepted g name)} {queries : List GeneratedQuery}

theorem oneRoute_of_carries (h : List.Forall₂ Carries queries accepted) :
    OneRoute name (routeMethodName name g.opts) queries := by
  intro query hquery route hroute
  obtain ⟨q, -, hq⟩ := exists_of_mem_left h hquery
  obtain ⟨route', hroute', hname, hmethod, -⟩ := hq.exists_route
  rw [hroute] at hroute'
  cases hroute'
  exact ⟨hname, hmethod⟩

theorem forall_sameRoute_iff (h : List.Forall₂ Carries queries accepted) :
    (∀ query ∈ queries, ∀ query' ∈ queries, SameRoute query query') ↔
      ∀ q ∈ accepted, ∀ q' ∈ accepted,
        q.route.key = q'.route.key ∧ q.route.columns = q'.route.columns := by
  constructor
  · intro hall q hq q' hq'
    obtain ⟨query, hquery, hcarries⟩ := exists_of_mem_right h hq
    obtain ⟨query', hquery', hcarries'⟩ := exists_of_mem_right h hq'
    obtain ⟨route, hroute, -, -, hkey, hcolumns⟩ := hcarries.exists_route
    obtain ⟨route', hroute', -, -, hkey', hcolumns'⟩ := hcarries'.exists_route
    rw [← hkey, ← hkey', ← hcolumns, ← hcolumns']
    exact hall query hquery query' hquery' route route' hroute hroute'
  · intro hall query hquery query' hquery' route route' hroute hroute'
    obtain ⟨q, hq, hcarries⟩ := exists_of_mem_left h hquery
    obtain ⟨q', hq', hcarries'⟩ := exists_of_mem_left h hquery'
    obtain ⟨r, hr, -, -, hkey, hcolumns⟩ := hcarries.exists_route
    obtain ⟨r', hr', -, -, hkey', hcolumns'⟩ := hcarries'.exists_route
    rw [hroute] at hr
    rw [hroute'] at hr'
    cases hr
    cases hr'
    rw [hkey, hkey', hcolumns, hcolumns']
    exact hall q hq q' hq'

/-- What the generator makes of a query with such a route carries it. -/
theorem carries_of_built {query : Query} {built out : GeneratedQuery}
    (hbuilt : buildQuery g query = .ok built)
    (hout : wrapQuery (ε := ε) built g.opts = .ok out) {route : ShardRoute}
    (hroute : out.route = some route) :
    ∃ (name : String) (q : Accepted g name), q.query = query ∧ Carries out q := by
  obtain ⟨builtRoute, hbuiltRoute, hwrap⟩ := wrapQuery_ok hout (by simp [hroute])
  obtain ⟨harg, ret, results, kind, ann, store, hret, -, hbuildRoute⟩ :=
    buildQuery_ok hbuilt hbuiltRoute
  obtain ⟨resolved, hlookup, hresolved, hcases⟩ := buildRoute_ok hbuildRoute
  refine ⟨ann.name, ⟨query, ann.operands, built.arg, ret, built.groupedMany, resolved, harg,
    hret, hlookup, hresolved⟩, rfl, ?_⟩
  have hsame : out.route.map ShardRoute.withoutExpressions =
      some builtRoute.withoutExpressions := by
    rcases hwrap with ⟨spec, -, -, hwrap⟩ | ⟨-, hwrap⟩
    · obtain ⟨-, -, -, -, -, hsame, -⟩ := wrapGroupedManyShardOperands_ok hwrap
      rw [hsame, hbuiltRoute]
      rfl
    · obtain ⟨expression, hsame, -⟩ := wrapShardParameters_route hwrap
      rw [hsame]
      simp [ShardRoute.withoutExpressions]
  unfold Carries Accepted.route
  rw [hsame]
  dsimp only
  rcases hcases with ⟨hnone, -, rfl⟩ | ⟨lookup, hsome, -, rfl⟩
  · simp only [hnone]
  · simp only [hsome]

end Accepted

/--
Queries with one route name may share it exactly when their keys agree, provided
that queries with the same key also name the same SQL columns.
-/
theorem routes_are_shared_iff {g : Generator ε} {name : String}
    {accepted : List (Accepted g name)} {queries : List GeneratedQuery}
    (hqueries : List.Forall₂ Carries queries accepted) :
    ((∃ routes, collectShardRoutes (ε := ε) queries = .ok routes) ↔ KeysAgree accepted) ↔
      (KeysAgree accepted → ColumnsAgree accepted) := by
  have hone := oneRoute_of_carries hqueries
  have hsame : (∃ routes, collectShardRoutes (ε := ε) queries = .ok routes) ↔
      KeysAgree accepted ∧ ColumnsAgree accepted := by
    rw [collectShardRoutes_ok_iff hone, forall_sameRoute_iff hqueries]
    unfold KeysAgree ColumnsAgree
    simp only [Accepted.route_columns]
    constructor
    · intro hall
      exact ⟨fun q hq q' hq' => (hall q hq q' hq').1, fun q hq q' hq' => (hall q hq q' hq').2⟩
    · rintro ⟨hkeys, hcolumns⟩ q hq q' hq'
      exact ⟨hkeys q hq q' hq', hcolumns q hq q' hq'⟩
  rw [hsame]
  tauto

end Sharing

/-! ## Accounts by one number and by several -/

local instance : Unicode := Unicode.ascii

/-- The queries below are routed by `accountKey(id)`. -/
def byAccount : Generator Unit := accountGenerator ⟨"accountKey", ["id"]⟩

/-- `SELECT id, tenant_id FROM accounts WHERE id = $1` -/
def getAccount : Query where
  name := "GetAccount"
  cmd := ":one"
  params := [⟨1, { name := "id" }⟩]
  columns := [{ name := "id" }, { name := "tenant_id" }]

/-- `DELETE FROM accounts WHERE id = $1` -/
def dropAccount : Query where
  name := "DropAccount"
  cmd := ":exec"
  params := [⟨1, { name := "id" }⟩]

def accountRow (name : String) : QueryValue where
  emit := true
  name := "i"
  structType := some ⟨none, name,
    [⟨"ID", "id", "int64"⟩, ⟨"TenantID", "tenant_id", "int64"⟩]⟩

def getAccepted : Accepted byAccount "accountKey" where
  query := getAccount
  operands := ["id"]
  arg := { name := "id", dbName := "id", typ := "int64" }
  ret := accountRow "GetAccountRow"
  lookup := none
  resolved := ⟨"accountKey", "AccountKey", "GetAccount",
    [⟨"iD", "int64", "id", "id", "ID", false⟩]⟩
  arg_ok := rfl
  ret_ok := rfl
  lookup_ok := rfl
  resolved_ok := rfl

def dropAccepted : Accepted byAccount "accountKey" where
  query := dropAccount
  operands := ["id"]
  arg := { name := "id", dbName := "id", typ := "int64" }
  ret := {}
  lookup := none
  resolved := ⟨"accountKey", "AccountKey", "DropAccount",
    [⟨"iD", "int64", "id", "id", "ID", false⟩]⟩
  arg_ok := rfl
  ret_ok := rfl
  lookup_ok := rfl
  resolved_ok := rfl

def listAccepted : Accepted byAccount "accountKey" where
  query := listAccounts
  operands := ["id"]
  arg := { name := "ids", dbName := "ids", typ := "[]int64" }
  ret := accountRow "ListAccountsRow"
  lookup := some
    { parameterDBName := "ids", parameterField := "Ids", lookupDBName := "id",
      lookupField := "ID", lookupExpression := "", elementType := "int64",
      resultKeyField := "ID", resultIsStruct := true, resultKeyAccess := {},
      itemIsPointer := false }
  resolved := ⟨"accountKey", "AccountKey", "ListAccounts",
    [⟨"iD", "[]int64", "ids", "ids", "ID", false⟩]⟩
  arg_ok := rfl
  ret_ok := rfl
  lookup_ok := rfl
  resolved_ok := rfl

theorem routes_are_shared_iff_by_id :
    ∃ outs routes, buildQueries byAccount [getAccount, dropAccount] = .ok outs ∧
      collectShardRoutes (ε := Unit) outs = .ok routes := by
  obtain ⟨drop, get, houts, hdrop, hget⟩ : ∃ drop get,
      buildQueries byAccount [getAccount, dropAccount] = .ok [drop, get] ∧
      Carries drop dropAccepted ∧ Carries get getAccepted :=
    ⟨_, _, rfl, rfl, rfl⟩
  have hkeys : KeysAgree [dropAccepted, getAccepted] := by
    intro q hq q' hq'
    fin_cases hq <;> fin_cases hq' <;> rfl
  have hcolumns : ColumnsAgree [dropAccepted, getAccepted] := by
    intro q hq q' hq'
    fin_cases hq <;> fin_cases hq' <;> rfl
  obtain ⟨routes, hroutes⟩ := ((routes_are_shared_iff (.cons hdrop (.cons hget .nil))).mpr
    fun _ => hcolumns).mpr hkeys
  exact ⟨[drop, get], routes, houts, hroutes⟩

/-- Both queries have the key `ID int64`.  It is refused because it stands for the
parameter `id` of one query and for the list `ids` of the other. -/
theorem account_key_is_not_shared :
    ∃ get list, buildQueries byAccount [getAccount, listAccounts] = .ok [get, list] ∧
      Carries get getAccepted ∧ Carries list listAccepted ∧
      KeysAgree [getAccepted, listAccepted] ∧
      ¬∃ routes, collectShardRoutes (ε := Unit) [get, list] = .ok routes := by
  refine ⟨_, _, rfl, rfl, rfl, ?_, ?_⟩
  · intro q hq q' hq'
    fin_cases hq <;> fin_cases hq' <;> rfl
  · rintro ⟨routes, hroutes⟩
    cases hroutes

end PgMesh.Plugin
