import PgMesh.Store.ManyMerge
import Mathlib.Data.List.Perm.Subperm

/-!
# A singleton store and a sharded store answer alike

The Singleton topology is a mesh of one virtual shard without a resolver.  A
grouped `:many` query over it returns the same rows, in the same order, as
over a sharded mesh that has each requested row where its key resolves to.
-/

namespace PgMesh.Store

open PgMesh.Foundation
open PgMesh.Topology

/-! ## The Singleton topology -/

/-- `NewConstantShardHasher`. -/
def newConstantShardHasher {κ : Type} (virtualShardIndex : UInt64) :
    κ → UInt64 :=
  fun _ => virtualShardIndex

/-- `singletonTopology`, where `none` is a nil database. -/
structure SingletonTopology (δ ε : Type) where
  name : String
  primary : Option δ
  replicas : List (Option δ)
  mirrors : List (Option δ)
  err : Option (GoError ε)

namespace SingletonTopology

variable {ρ A δ ε : Type} [Named ρ] [DecidableEq ρ]

/-- The databases of a list, or the index of the first one that is nil. -/
def databases : List (Option δ × Nat) → Except Nat (List δ)
  | [] => .ok []
  | (none, index) :: _ => .error index
  | (some database, _) :: rest =>
      match databases rest with
      | .error index => .error index
      | .ok rest => .ok (database :: rest)

/--
`newReplicaSet` makes the replica set of a name, a primary, replicas and
mirrors; the errors are those of the telemetry of the builder.
-/
def buildStore (c : SingletonTopology δ ε)
    (newReplicaSet : String → δ → List δ → List δ → ρ)
    (telemetryErr providerErr : Option (GoError ε)) :
    Except (GoError ε) (MeshStore ρ UInt8 A) :=
  match c.err, c.primary, databases c.replicas.zipIdx,
    databases c.mirrors.zipIdx with
  | some err, _, _, _ => .error err
  | none, none, _, _ => .error (.errorf "pgmesh: database primary is nil" [])
  | none, some _, .error index, _ =>
      .error (.errorf "pgmesh: database replica %d is nil" [.number index])
  | none, some _, .ok _, .error index =>
      .error (.errorf "pgmesh: database mirror %d is nil" [.number index])
  | none, some primary, .ok replicas, .ok mirrors =>
      let databaseName := if c.name = "" then "default" else c.name
      let replicaSet := newReplicaSet databaseName primary replicas mirrors
      let builder := MeshBuilder.newMeshBuilder 1 telemetryErr
      let builder := builder.withShardHasher (some (newConstantShardHasher 0))
      let builder := builder.withMeterProvider providerErr
      match (builder.mapVirtualShard 0 (some replicaSet)).build with
      | .error err => .error err
      | .ok mesh => .ok ⟨mesh, none⟩

/-- Every key goes to the one replica set, and no resolver is asked for it. -/
theorem buildStore_target {c : SingletonTopology δ ε}
    {newReplicaSet : String → δ → List δ → List δ → ρ}
    {telemetryErr providerErr : Option (GoError ε)} {store : MeshStore ρ UInt8 A}
    (h : c.buildStore newReplicaSet telemetryErr providerErr = .ok store) :
    store.resolver = none ∧ ∃ r, ∀ key, store.mesh.target? key = some r := by
  unfold buildStore at h
  split at h
  · cases h
  · cases h
  · cases h
  · cases h
  · rename_i primary replicas mirrors _ _ _ _
    simp only at h
    split at h
    · cases h
    · rename_i mesh hbuild
      cases h
      obtain ⟨herr, hhasher, hshards⟩ := MeshBuilder.build_eq_ok hbuild
      generalize newReplicaSet _ primary replicas mirrors = replicaSet at hhasher hshards
      cases telemetryErr with
      | some err => cases providerErr <;> cases herr
      | none =>
          cases providerErr with
          | some err => cases herr
          | none =>
              change mesh.virtualShards.map some = [some replicaSet] at hshards
              change some (newConstantShardHasher 0) = some mesh.hasher at hhasher
              refine ⟨rfl, replicaSet, ?_⟩
              intro key
              have hmap : (mesh.virtualShards.map some)[0]? =
                  some (some replicaSet) := by
                rw [hshards]
                rfl
              rw [List.getElem?_map, Option.map_eq_some_iff] at hmap
              obtain ⟨r, hr, heq⟩ := hmap
              cases heq
              unfold Mesh.target?
              rw [← Option.some.inj hhasher]
              exact hr

theorem buildStore_ok {c : SingletonTopology δ ε}
    {newReplicaSet : String → δ → List δ → List δ → ρ}
    {telemetryErr providerErr : Option (GoError ε)} {store : MeshStore ρ UInt8 A}
    (h : c.buildStore newReplicaSet telemetryErr providerErr = .ok store) :
    ∃ r, ∀ operand, store.mesh.target? (store.shardKey operand) = some r := by
  obtain ⟨-, r, hr⟩ := buildStore_target h
  exact ⟨r, fun operand => hr (store.shardKey operand)⟩

end SingletonTopology

/-! ## The same errors -/

variable {ρ κ ρ' κ' A Item V K Row ε : Type} [Named ρ] [Inhabited κ] [Named ρ']
  [Inhabited κ'] [GoAny K]

/-- Two stores that resolve every item stop at the same item, with the same error. -/
theorem groupLookups_same_error (s : MeshStore ρ κ A) (s' : MeshStore ρ' κ' A)
    (q : ManyQuery Item V K A Row) (rest : List (Option Item × Nat))
    (h : ∀ item, some item ∈ rest.map Prod.fst →
      s.targetName? (q.route item) ≠ none ∧ s'.targetName? (q.route item) ≠ none)
    (groups : GoMap String (ManyShardGroup ρ V K))
    (groups' : GoMap String (ManyShardGroup ρ' V K))
    (orderedItems orderedItems' : List (ManyOrderItem K)) :
    (∃ err, groupLookups (ε := ε) s q groups orderedItems rest = .error err ∧
      groupLookups s' q groups' orderedItems' rest = .error err) ∨
    ∃ state state',
      groupLookups (ε := ε) s q groups orderedItems rest = .ok state ∧
      groupLookups (ε := ε) s' q groups' orderedItems' rest = .ok state' := by
  induction rest generalizing groups groups' orderedItems orderedItems' with
  | nil => exact .inr ⟨_, _, rfl, rfl⟩
  | cons entry rest ih =>
      obtain ⟨item?, inputIndex⟩ := entry
      cases item? with
      | none => exact .inl ⟨_, rfl, rfl⟩
      | some item =>
          have hrest := ih fun item hitem => h item (List.mem_cons_of_mem _ hitem)
          obtain ⟨hs, hs'⟩ := h item List.mem_cons_self
          simp only [groupLookups]
          split
          · exact .inl ⟨_, rfl, rfl⟩
          · cases hresolve : s.resolve (ε := ε) (q.route item) with
            | error err => exact absurd (MeshStore.targetName?_of_error hresolve) hs
            | ok shard =>
                cases hresolve' : s'.resolve (ε := ε) (q.route item) with
                | error err =>
                    exact absurd (MeshStore.targetName?_of_error hresolve') hs'
                | ok shard' =>
                    simp only
                    split <;> split <;> exact hrest _ _ _ _

/-! ## The same rows -/

/-- The rows of a table that a query over an argument list returns. -/
def answer (q : ManyQuery Item V K A Row) (table : List Row) (args : List V) :
    List Row :=
  table.filter fun row => args.any fun v => hasKey q (q.key v) row

/-- The distinct lookup keys of the input, in first-occurrence order. -/
def distinctKeys (q : ManyQuery Item V K A Row) (items : List Item) : List K :=
  (items.map fun item => q.key (q.lookup item)).eraseDupsBy (· == ·)

section Table

variable {s : MeshStore ρ κ A} {q : ManyQuery Item V K A Row} {items : List Item}
  {table : List Row} {localRows : String → List Row}

omit [GoAny K] in
theorem targets_map_snd
    (hresolve : ∀ item ∈ items, s.targetName? (q.route item) ≠ none) :
    (targets s q items).map Prod.snd =
      items.map fun item => q.key (q.lookup item) := by
  unfold targets
  rw [List.map_filterMap]
  induction items with
  | nil => rfl
  | cons item items ih =>
      have hrest := ih fun other hother =>
        hresolve other (List.mem_cons_of_mem _ hother)
      obtain ⟨target, htarget⟩ := Option.ne_none_iff_exists'.mp
        (hresolve item List.mem_cons_self)
      rw [List.filterMap_cons, htarget, List.map_cons, ← hrest]
      rfl

/-- Items with equal keys have one target, so the pairs are the keys. -/
theorem distinctTargets_map_snd
    (hresolve : ∀ item ∈ items, s.targetName? (q.route item) ≠ none)
    (hsame : ∀ item ∈ items, ∀ item' ∈ items,
      (q.key (q.lookup item) == q.key (q.lookup item')) = true →
        s.targetName? (q.route item) = s.targetName? (q.route item')) :
    (distinctTargets s q items).map Prod.snd = distinctKeys q items := by
  unfold distinctTargets distinctKeys
  rw [← targets_map_snd hresolve]
  apply map_eraseDupsBy
  intro x hx y hy
  obtain ⟨item, hitem, hsome⟩ := List.mem_filterMap.mp hx
  obtain ⟨target, htarget, rfl⟩ := Option.map_eq_some_iff.mp hsome
  obtain ⟨item', hitem', hsome'⟩ := List.mem_filterMap.mp hy
  obtain ⟨target', htarget', rfl⟩ := Option.map_eq_some_iff.mp hsome'
  cases hkey : q.key (q.lookup item) == q.key (q.lookup item') with
  | false => simp [samePair, hkey]
  | true =>
      have heq := hsame item hitem item' hitem' hkey
      rw [htarget, htarget', Option.some.injEq] at heq
      simp [samePair, hkey, heq]

/-- The argument list of a replica set holds every key that is routed to it. -/
theorem filter_answer {target : String} {k : K} (rows : List Row)
    (hpair : (target, k) ∈ targets s q items) :
    (answer q rows ((lookupsFor s q target items).eraseDupsBy (sameKey q))).filter
        (hasKey q k) = rows.filter (hasKey q k) := by
  unfold answer
  rw [List.filter_filter]
  apply List.filter_congr
  intro row _
  cases hrow : hasKey q k row with
  | false => rfl
  | true =>
      rw [Bool.true_and, List.any_eq_true]
      simp only [hasKey, Option.any_eq_true] at hrow ⊢
      obtain ⟨kr, hkr, heq⟩ := hrow
      obtain ⟨item, hitem, hsome⟩ := List.mem_filterMap.mp hpair
      obtain ⟨_, htarget, hx⟩ := Option.map_eq_some_iff.mp hsome
      cases hx
      have hlookup : q.lookup item ∈ lookupsFor s q target items :=
        List.mem_map_of_mem (List.mem_filter.mpr ⟨hitem, by simp [htarget]⟩)
      have hself : sameKey q (q.lookup item) (q.lookup item) = true :=
        PartialEquivBEq.trans (PartialEquivBEq.symm heq) heq
      obtain ⟨v, hv, hvk⟩ := exists_mem_eraseDupsBy sameKey_trans
        (fun _ _ => PartialEquivBEq.symm) hlookup hself
      exact ⟨v, hv, kr, hkr, PartialEquivBEq.trans heq (PartialEquivBEq.symm hvk)⟩

theorem requested_of_answer {target : String} {rows : List Row}
    (hrows : ∀ row ∈ rows, q.rowIsNil row = false) :
    ∀ row ∈ answer q rows ((lookupsFor s q target items).eraseDupsBy (sameKey q)),
      RowRequested s q items target row := by
  intro row hrow
  obtain ⟨hmem, hany⟩ := List.mem_filter.mp hrow
  obtain ⟨v, hv, hkey⟩ := List.any_eq_true.mp hany
  refine ⟨hrows row hmem, ?_⟩
  intro k hk
  refine ⟨v, (eraseDupsBy_sublist _).subset hv, ?_⟩
  rw [Option.mem_def] at hk
  simp only [hasKey, hk, Option.any_some] at hkey
  exact PartialEquivBEq.symm hkey

/-- The result in terms of the table alone. -/
theorem merged_eq_table
    (hresolve : ∀ item ∈ items, s.targetName? (q.route item) ≠ none)
    (hsame : ∀ item ∈ items, ∀ item' ∈ items,
      (q.key (q.lookup item) == q.key (q.lookup item')) = true →
        s.targetName? (q.route item) = s.targetName? (q.route item'))
    (hkeyed : ∀ target, ∀ row ∈ localRows target, q.resultKey row ≠ none)
    (hlocal : ∀ item ∈ items, ∀ target, s.targetName? (q.route item) = some target →
      (localRows target).filter (hasKey q (q.key (q.lookup item))) =
        table.filter (hasKey q (q.key (q.lookup item)))) :
    merged s q (fun target => answer q (localRows target)
        ((lookupsFor s q target items).eraseDupsBy (sameKey q))) items =
      (distinctKeys q items).flatMap fun k => table.filter (hasKey q k) := by
  have hnull : ((queried s q items).flatMap fun r =>
      (answer q (localRows (name r))
        ((lookupsFor s q (name r) items).eraseDupsBy (sameKey q))).filter
          (nullKeyed q)) = [] := by
    apply List.flatMap_eq_nil_iff.mpr
    intro r _
    apply List.filter_eq_nil_iff.mpr
    intro row hrow
    have hkey := hkeyed (name r) row (List.mem_of_mem_filter hrow)
    simpa [nullKeyed] using hkey
  unfold merged
  rw [hnull, List.append_nil, ← distinctTargets_map_snd hresolve hsame,
    List.flatMap_map]
  apply List.flatMap_congr
  rintro ⟨target, k⟩ hx
  have hpair : (target, k) ∈ targets s q items := (eraseDupsBy_sublist _).subset hx
  rw [filter_answer _ hpair]
  obtain ⟨item, hitem, hsome⟩ := List.mem_filterMap.mp hpair
  obtain ⟨_, htarget, heq⟩ := Option.map_eq_some_iff.mp hsome
  cases heq
  exact hlocal item hitem target htarget

end Table

theorem PlanOf.args_eq {s : MeshStore ρ κ A} {q : ManyQuery Item V K A Row}
    {items : List Item} {plan : ManyPlan ρ V K} (h : PlanOf s q items plan) :
    ∀ group ∈ plan.groups, group.args =
      (lookupsFor s q group.shard.replicaSetName items).eraseDupsBy (sameKey q) := by
  intro group hgroup
  have hmem : (group.shard.replicaSet, group.args) ∈
      plan.groups.map fun g => (g.shard.replicaSet, g.args) :=
    List.mem_map_of_mem hgroup
  rw [h.groups] at hmem
  obtain ⟨r, -, heq⟩ := List.mem_map.mp hmem
  obtain ⟨rfl, hargs⟩ := Prod.mk.inj heq
  exact hargs.symm

/-- One store, whose nodes answer with their local rows of the table. -/
theorem groupedMany_eq_table {s : MeshStore ρ κ A} {q : ManyQuery Item V K A Row}
    {items : List Item} {options : QueryOptions} (table : List Row)
    {localRows : String → List Row}
    (haccepted : ∀ item ∈ items, ¬Unacceptable s q (some item))
    (htx : options.tx = true → (queried s q items).length ≤ 1)
    (hsame : ∀ item ∈ items, ∀ item' ∈ items,
      (q.key (q.lookup item) == q.key (q.lookup item')) = true →
        s.targetName? (q.route item) = s.targetName? (q.route item'))
    (hrows : ∀ target, ∀ row ∈ localRows target,
      q.rowIsNil row = false ∧ q.resultKey row ≠ none)
    (hlocal : ∀ item ∈ items, ∀ target, s.targetName? (q.route item) = some target →
      (localRows target).filter (hasKey q (q.key (q.lookup item))) =
        table.filter (hasKey q (q.key (q.lookup item))))
    {completions : List (Nat × ManyResult Row ε)}
    (hanswers : ∀ plan, manyPlan (ε := ε) s q (items.map some) options = .ok plan →
      Completes (plan.groups.map fun g =>
        ⟨answer q (localRows g.shard.replicaSetName) g.args, none⟩) completions) :
    groupedMany s q (items.map some) options completions =
      ((distinctKeys q items).flatMap fun k => table.filter (hasKey q k), none) := by
  have hresolve : ∀ item ∈ items, s.targetName? (q.route item) ≠ none :=
    fun item hitem hnone => haccepted item hitem (.inr hnone)
  obtain ⟨plan, hplan, hof, hmerge⟩ := groupedMany_eq (ε := ε) haccepted htx
    (fun target => answer q (localRows target)
      ((lookupsFor s q target items).eraseDupsBy (sameKey q)))
    fun r _ => requested_of_answer fun row hrow => (hrows (name r) row hrow).1
  have hcompletes := hanswers plan hplan
  have hanswered : (plan.groups.map fun g =>
      (⟨answer q (localRows g.shard.replicaSetName) g.args, none⟩ :
        ManyResult Row ε)) =
      plan.groups.map fun g => ⟨answer q (localRows g.shard.replicaSetName)
        ((lookupsFor s q g.shard.replicaSetName items).eraseDupsBy (sameKey q)),
          none⟩ := by
    apply List.map_congr_left
    intro group hgroup
    rw [hof.args_eq group hgroup]
  rw [hanswered] at hcompletes
  rw [hmerge completions hcompletes]
  exact congrArg (·, none) (merged_eq_table hresolve hsame
    (fun target row hrow => (hrows target row hrow).2) hlocal)

omit [GoAny K] in
/-- With one target for all operands, at most one replica set is queried. -/
theorem queried_length_le_one {s : MeshStore ρ κ A}
    {q : ManyQuery Item V K A Row} {items : List Item} {target : String}
    (h : ∀ operand, s.targetName? operand = some target) :
    (queried s q items).length ≤ 1 := by
  have hsubset : (queried s q items).map name ⊆ [target] := by
    intro shardName hname
    obtain ⟨r, hr, rfl⟩ := List.mem_map.mp hname
    have hne := (List.mem_filter.mp hr).2
    by_contra hnot
    rw [List.mem_singleton] at hnot
    simp [lookupsFor, h, Ne.symm hnot] at hne
  have hle :=
    (List.subperm_of_subset (queried_names_nodup s q items) hsubset).length_le
  rwa [List.length_map, List.length_singleton] at hle

/-- The rows of a placed table that are on one replica set. -/
def rowsOn (placed : List (Row × String)) (target : String) : List Row :=
  (placed.filter fun entry => entry.2 == target).map Prod.fst

theorem filter_rowsOn {placed : List (Row × String)} {target : String}
    {p : Row → Bool} (h : ∀ entry ∈ placed, p entry.1 = true → entry.2 = target) :
    (rowsOn placed target).filter p = (placed.map Prod.fst).filter p := by
  unfold rowsOn
  rw [List.filter_map, List.filter_map, List.filter_filter]
  congr 1
  apply List.filter_congr
  intro entry hentry
  cases hp : p entry.1 with
  | false => simp [hp]
  | true => simp [hp, h entry hentry hp]

/-- An input that passes the first loop has no nil item and no bad key. -/
theorem groupLookups_items {s : MeshStore ρ κ A} {q : ManyQuery Item V K A Row}
    {arg : List (Option Item)}
    {state : GoMap String (ManyShardGroup ρ V K) × List (ManyOrderItem K)}
    (hok : groupLookups (ε := ε) s q [] [] arg.zipIdx = .ok state) :
    ∃ items : List Item, arg = items.map some ∧
      ∀ item ∈ items, ¬Unacceptable s q (some item) := by
  obtain ⟨items, hitems, -, haccepted⟩ := groupLookups_ok hok
  refine ⟨items, hitems, ?_⟩
  intro item hitem
  apply haccepted
  rw [hitems]
  exact List.mem_map_of_mem hitem

/-- A placement that puts every requested row where its key resolves to. -/
theorem groupedMany_eq_placed {s : MeshStore ρ κ A} {q : ManyQuery Item V K A Row}
    {items : List Item} {options : QueryOptions} {placed : List (Row × String)}
    (haccepted : ∀ item ∈ items, ¬Unacceptable s q (some item))
    (htx : options.tx = true → (queried s q items).length ≤ 1)
    (hsame : ∀ item ∈ items, ∀ item' ∈ items,
      (q.key (q.lookup item) == q.key (q.lookup item')) = true →
        s.targetName? (q.route item) = s.targetName? (q.route item'))
    (hrows : ∀ entry ∈ placed,
      q.rowIsNil entry.1 = false ∧ q.resultKey entry.1 ≠ none)
    (hplaced : ∀ entry ∈ placed, ∀ item ∈ items,
      hasKey q (q.key (q.lookup item)) entry.1 = true →
        s.targetName? (q.route item) = some entry.2)
    {completions : List (Nat × ManyResult Row ε)}
    (hanswers : ∀ plan, manyPlan (ε := ε) s q (items.map some) options = .ok plan →
      Completes (plan.groups.map fun g =>
        ⟨answer q (rowsOn placed g.shard.replicaSetName) g.args, none⟩) completions) :
    groupedMany s q (items.map some) options completions =
      ((distinctKeys q items).flatMap fun k =>
        (placed.map Prod.fst).filter (hasKey q k), none) := by
  apply groupedMany_eq_table (placed.map Prod.fst) haccepted htx hsame _ _ hanswers
  · intro target row hrow
    obtain ⟨entry, hentry, rfl⟩ := List.mem_map.mp hrow
    exact hrows entry (List.mem_of_mem_filter hentry)
  · intro item hitem target htarget
    apply filter_rowsOn
    intro entry hentry hkey
    have hon := hplaced entry hentry item hitem hkey
    rw [htarget] at hon
    exact (Option.some.inj hon).symm

/--
The rows of a table, placed over a sharded mesh so that every row with a
requested key is where its key resolves to, come back as from the Singleton
store that holds the whole table.
-/
theorem grouped_many_is_topology_independent {δ : Type} [DecidableEq ρ']
    {s : MeshStore ρ κ A} {single : MeshStore ρ' UInt8 A}
    {topology : SingletonTopology δ ε}
    {newReplicaSet : String → δ → List δ → List δ → ρ'}
    {telemetryErr providerErr : Option (GoError ε)}
    (hsingle : topology.buildStore newReplicaSet telemetryErr providerErr =
      .ok single)
    (q : ManyQuery Item V K A Row) (arg : List (Option Item))
    (options : QueryOptions)
    (hresolve : ∀ item, some item ∈ arg → s.targetName? (q.route item) ≠ none)
    (hsame : ∀ item item', some item ∈ arg → some item' ∈ arg →
      (q.key (q.lookup item) == q.key (q.lookup item')) = true →
        s.targetName? (q.route item) = s.targetName? (q.route item'))
    (htx : options.tx = true → (queried s q (arg.filterMap id)).length ≤ 1)
    (placed : List (Row × String))
    (hrows : ∀ entry ∈ placed,
      q.rowIsNil entry.1 = false ∧ q.resultKey entry.1 ≠ none)
    (hplaced : ∀ entry ∈ placed, ∀ item, some item ∈ arg →
      hasKey q (q.key (q.lookup item)) entry.1 = true →
        s.targetName? (q.route item) = some entry.2)
    {completions completions' : List (Nat × ManyResult Row ε)}
    (hsharded : ∀ plan, manyPlan (ε := ε) s q arg options = .ok plan →
      Completes (plan.groups.map fun g =>
        ⟨answer q (rowsOn placed g.shard.replicaSetName) g.args, none⟩)
          completions)
    (hwhole : ∀ plan, manyPlan (ε := ε) single q arg options = .ok plan →
      Completes (plan.groups.map fun g =>
        ⟨answer q (placed.map Prod.fst) g.args, none⟩) completions') :
    groupedMany s q arg options completions =
      groupedMany single q arg options completions' := by
  obtain ⟨r, hr⟩ := SingletonTopology.buildStore_ok hsingle
  have hone : ∀ operand, single.targetName? operand = some (name r) := by
    intro operand
    rw [MeshStore.targetName?, hr]
    rfl
  have hfst : arg.zipIdx.map Prod.fst = arg := List.zipIdx_map_fst 0 arg
  have hboth : ∀ item, some item ∈ arg.zipIdx.map Prod.fst →
      s.targetName? (q.route item) ≠ none ∧
        single.targetName? (q.route item) ≠ none := by
    intro item hitem
    rw [hfst] at hitem
    exact ⟨hresolve item hitem, by simp [hone]⟩
  rcases groupLookups_same_error (ε := ε) s single q arg.zipIdx hboth [] [] [] []
    with ⟨err, herr, herr'⟩ | ⟨state, state', hok, -⟩
  · simp [groupedMany, manyPlan, herr, herr']
  · obtain ⟨items, rfl, haccepted⟩ := groupLookups_items hok
    rw [List.filterMap_map, show id ∘ some = (some : Item → Option Item) from rfl,
      List.filterMap_some] at htx
    have hmem : ∀ item ∈ items, some item ∈ items.map some :=
      fun item hitem => List.mem_map_of_mem hitem
    have haccepted' : ∀ item ∈ items, ¬Unacceptable single q (some item) := by
      rintro item hitem (hkey | hnone)
      · exact haccepted item hitem (.inl hkey)
      · simp [hone] at hnone
    have htable : ∀ row ∈ placed.map Prod.fst,
        q.rowIsNil row = false ∧ q.resultKey row ≠ none := by
      intro row hrow
      obtain ⟨entry, hentry, rfl⟩ := List.mem_map.mp hrow
      exact hrows entry hentry
    rw [groupedMany_eq_placed haccepted htx
        (fun i hi j hj => hsame i j (hmem i hi) (hmem j hj)) hrows
        (fun entry hentry item hitem => hplaced entry hentry item (hmem item hitem))
        hsharded,
      groupedMany_eq_table (placed.map Prod.fst) haccepted'
        (fun _ => queried_length_le_one hone)
        (fun _ _ _ _ _ => by rw [hone, hone]) (fun _ => htable) (fun _ _ _ _ => rfl)
        hwhole]

/-! ## A table over two sites -/

structure Database where
  label : String
  deriving DecidableEq, Repr

instance : Named Database := ⟨Database.label⟩

def singleDatabase : SingletonTopology Unit Unit := ⟨"", some (), [], [], none⟩

def placedRows : List ((Option SiteKey × Nat) × String) :=
  [((some ⟨12⟩, 0), "east"), ((some ⟨21⟩, 1), "west"), ((some ⟨10⟩, 2), "east"),
    ((some ⟨20⟩, 3), "west"), ((some ⟨77⟩, 4), "east"), ((some ⟨20⟩, 5), "west")]

theorem grouped_many_is_topology_independent_two_sites :
    ∃ single : MeshStore Database UInt8 Nat,
      singleDatabase.buildStore (fun label _ _ _ => ⟨label⟩) none none = .ok single ∧
      groupedMany (ε := Unit) siteStore siteMany (siteItems.map some) ⟨false, false⟩
        [(1, ⟨answer siteMany (rowsOn placedRows "west") [20, 99, 21], none⟩),
          (0, ⟨answer siteMany (rowsOn placedRows "east") [10, 12], none⟩)] =
      groupedMany single siteMany (siteItems.map some) ⟨false, false⟩
        [(0, ⟨answer siteMany (placedRows.map Prod.fst) [20, 10, 99, 21, 12],
          none⟩)] := by
  have hmem : ∀ item, some item ∈ siteItems.map some → item ∈ siteItems := by simp
  have hresolve : ∀ item ∈ siteItems,
      siteStore.targetName? (siteMany.route item) ≠ none := by decide
  have hsame : ∀ item ∈ siteItems, ∀ item' ∈ siteItems,
      (siteMany.key (siteMany.lookup item) == siteMany.key (siteMany.lookup item')) =
        true → siteStore.targetName? (siteMany.route item) =
          siteStore.targetName? (siteMany.route item') := by decide
  have hplaced : ∀ entry ∈ placedRows, ∀ item ∈ siteItems,
      hasKey siteMany (siteMany.key (siteMany.lookup item)) entry.1 = true →
        siteStore.targetName? (siteMany.route item) = some entry.2 := by decide
  refine ⟨_, rfl, ?_⟩
  apply grouped_many_is_topology_independent (rfl :
      singleDatabase.buildStore (fun label _ _ _ => ⟨label⟩) none none = .ok _)
    siteMany (siteItems.map some) ⟨false, false⟩
    (fun item h => hresolve item (hmem item h))
    (fun item item' h h' => hsame item (hmem item h) item' (hmem item' h')) nofun
    placedRows (by decide)
    (fun entry hentry item h => hplaced entry hentry item (hmem item h))
  · intro plan hplan
    cases hplan
    exact .swap _ _ _
  · intro plan hplan
    cases hplan
    exact .refl _

end PgMesh.Store
