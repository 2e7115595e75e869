import PgMesh.Foundation.Distinct
import PgMesh.Foundation.FanOut
import PgMesh.Store.Routing

/-!
# The grouped `:many` query

A routed `:many` query with one list parameter takes items instead.  The
generated method sends each replica set the lookup values of its items, each
value once, and puts the rows that come back into the order of the input.
-/

namespace PgMesh.Store

open PgMesh.Foundation
open PgMesh.Topology

inductive QueryKind where
  | read
  | write
  deriving DecidableEq, Repr

inductive RouteMode where
  | read
  | primary
  | transaction
  deriving DecidableEq, Repr

/-- The result of `applyQueryOptions`; `tx` says that a transaction is set. -/
structure QueryOptions where
  tx : Bool
  primary : Bool
  deriving DecidableEq, Repr

def routeMode (kind : QueryKind) (options : QueryOptions) : RouteMode :=
  if options.tx then .transaction
  else
    match kind with
    | .read => if options.primary then .primary else .read
    | .write => .primary

/--
What the generator fixes for one grouped `:many` query.  `key` is the
conversion of a lookup value to `any`.  A nil row, where rows are pointers to
structures, has no fields; `resultKey` is `none` when the generated code finds
the lookup field NULL.
-/
structure ManyQuery (Item V K A Row : Type) where
  methodName : String
  kind : QueryKind
  route : Item → A
  lookup : Item → V
  key : V → K
  rowIsNil : Row → Bool
  resultKey : Row → Option K

structure ManyShardGroup (ρ V K : Type) where
  shard : ResolvedShard ρ
  args : List V
  requested : GoMap K Unit

structure ManyOrderItem (K : Type) where
  shardName : String
  key : K

structure ManyResult (Row ε : Type) where
  value : List Row
  err : Option (GoError ε)

variable {ρ κ A Item V K Row ε : Type} [Named ρ] [Inhabited κ] [GoAny K]

/-! ## Before the physical queries -/

/-- The loop over the input, where `none` is a nil item. -/
def groupLookups (s : MeshStore ρ κ A) (q : ManyQuery Item V K A Row) :
    GoMap String (ManyShardGroup ρ V K) → List (ManyOrderItem K) →
      List (Option Item × Nat) →
      Except (GoError ε)
        (GoMap String (ManyShardGroup ρ V K) × List (ManyOrderItem K))
  | groups, orderedItems, [] => .ok (groups, orderedItems)
  | _, _, (none, inputIndex) :: _ =>
      .error (.errorf
        ("route " ++ q.methodName ++ " input %d: shard parameter is nil")
        [.number inputIndex])
  | groups, orderedItems, (some item, inputIndex) :: items =>
      let lookupValue := q.lookup item
      let lookupKey := q.key lookupValue
      if !GoAny.hashable lookupKey then
        .error (.errorf
          ("route " ++ q.methodName ++
            " input %d: lookup key type %T is not comparable")
          [.number inputIndex, .text (GoAny.typeName lookupKey)])
      else
        match s.resolve (q.route item) with
        | .error routeErr =>
            .error (.errorf ("route " ++ q.methodName ++ " input %d: %w")
              [.number inputIndex, .wrapped routeErr])
        | .ok shard =>
            let shardGroup :=
              (GoMap.get? groups shard.replicaSetName).getD ⟨shard, [], []⟩
            if (GoMap.get? shardGroup.requested lookupKey).isSome then
              groupLookups s q
                (GoMap.set groups shard.replicaSetName shardGroup)
                orderedItems items
            else
              let shardGroup := { shardGroup with
                args := shardGroup.args ++ [lookupValue]
                requested := GoMap.set shardGroup.requested lookupKey () }
              groupLookups s q
                (GoMap.set groups shard.replicaSetName shardGroup)
                (orderedItems ++ [⟨shard.replicaSetName, lookupKey⟩]) items

/-- What the method has decided before it starts the physical queries. -/
structure ManyPlan (ρ V K : Type) where
  mode : RouteMode
  groups : List (ManyShardGroup ρ V K)
  orderedItems : List (ManyOrderItem K)

def manyPlan (s : MeshStore ρ κ A) (q : ManyQuery Item V K A Row)
    (arg : List (Option Item)) (options : QueryOptions) :
    Except (GoError ε) (ManyPlan ρ V K) :=
  match groupLookups s q [] [] arg.zipIdx with
  | .error err => .error err
  | .ok (groupsByName, orderedItems) =>
      let groups := populated s.mesh groupsByName
      if options.tx && decide (groups.length > 1) then
        .error errCrossShardTransaction
      else .ok ⟨routeMode q.kind options, groups, orderedItems⟩

/-! ## After the physical queries -/

/-- The variables of the loops that sort the rows. -/
structure ManyRows (K Row ε : Type) where
  rowsByKey : GoMap K (List Row)
  unkeyedRows : List Row
  groupErrors : List (GoError ε)

def collectRow (q : ManyQuery Item V K A Row) (group : ManyShardGroup ρ V K)
    (acc : ManyRows K Row ε) (row : Row) (resultIndex : Nat) :
    ManyRows K Row ε :=
  let shardName := group.shard.replicaSetName
  if q.rowIsNil row then
    { acc with
      groupErrors := acc.groupErrors ++ [.errorf
        ("query " ++ q.methodName ++
          " on replica set %q returned nil row at result %d")
        [.text shardName, .number resultIndex]] }
  else
    match q.resultKey row with
    | none => { acc with unkeyedRows := acc.unkeyedRows ++ [row] }
    | some resultKey =>
        if !GoAny.hashable resultKey then
          { acc with
            groupErrors := acc.groupErrors ++ [.errorf
              ("query " ++ q.methodName ++
                " on replica set %q result %d has non-comparable lookup key type %T")
              [.text shardName, .number resultIndex,
                .text (GoAny.typeName resultKey)]] }
        else if (GoMap.get? group.requested resultKey).isNone then
          { acc with
            groupErrors := acc.groupErrors ++ [.errorf
              ("query " ++ q.methodName ++
                " on replica set %q result %d has an unrequested lookup key")
              [.text shardName, .number resultIndex]] }
        else
          { acc with
            rowsByKey := GoMap.set acc.rowsByKey resultKey
              (GoMap.getD acc.rowsByKey resultKey [] ++ [row]) }

def collectRows (q : ManyQuery Item V K A Row) (group : ManyShardGroup ρ V K) :
    ManyRows K Row ε → List (Row × Nat) → ManyRows K Row ε
  | acc, [] => acc
  | acc, (row, resultIndex) :: rows =>
      collectRows q group (collectRow q group acc row resultIndex) rows

structure ManyMerge (K Row ε : Type) where
  rowsByGroup : GoMap String (GoMap K (List Row))
  unkeyedRows : List Row
  groupErrors : List (GoError ε)

def collectGroups (q : ManyQuery Item V K A Row) :
    ManyMerge K Row ε → List (ManyShardGroup ρ V K × ManyResult Row ε) →
      ManyMerge K Row ε
  | acc, [] => acc
  | acc, (group, result) :: rest =>
      let rows := collectRows q group ⟨[], acc.unkeyedRows, acc.groupErrors⟩
        result.value.zipIdx
      collectGroups q
        ⟨GoMap.set acc.rowsByGroup group.shard.replicaSetName rows.rowsByKey,
          rows.unkeyedRows, rows.groupErrors⟩ rest

/-- The method once all physical queries have returned. -/
def mergeManyResults (q : ManyQuery Item V K A Row) (plan : ManyPlan ρ V K)
    (groupResults : List (ManyResult Row ε)) :
    List Row × Option (GoError ε) :=
  let groupErrors := (plan.groups.zip groupResults).filterMap
    fun (group, result) =>
      result.err.map (shardError q.methodName group.shard.replicaSetName)
  match GoError.join groupErrors with
  | some err => ([], some err)
  | none =>
      let merged := collectGroups q ⟨[], [], []⟩ (plan.groups.zip groupResults)
      match GoError.join merged.groupErrors with
      | some err => ([], some err)
      | none =>
          ((plan.orderedItems.flatMap fun orderedItem =>
              GoMap.getD
                (GoMap.getD merged.rowsByGroup orderedItem.shardName [])
                orderedItem.key []) ++ merged.unkeyedRows, none)

/--
The whole method.  `completions` lists the physical queries in the order in
which they return, with what they return.
-/
def groupedMany (s : MeshStore ρ κ A) (q : ManyQuery Item V K A Row)
    (arg : List (Option Item)) (options : QueryOptions)
    (completions : List (Nat × ManyResult Row ε)) :
    List Row × Option (GoError ε) :=
  match manyPlan s q arg options with
  | .error err => ([], some err)
  | .ok plan =>
      if plan.groups.length = 0 then ([], none)
      else
        mergeManyResults q plan
          (fill (List.replicate plan.groups.length ⟨[], none⟩) completions)

end PgMesh.Store
