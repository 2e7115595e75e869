import PgMesh.Store.GroupedMany

/-!
# The merge of a grouped `:many` query is exact

The rows come back grouped by replica set.  The method returns them in the
order of the distinct pairs of a replica set and a lookup key in the input,
followed by the rows whose lookup key is NULL.
-/

namespace PgMesh.Store

open PgMesh.Foundation
open PgMesh.Topology

variable {ρ κ A Item V K Row ε : Type} [Named ρ] [Inhabited κ]

/-! ## The partition of the input -/

section Spec

variable (s : MeshStore ρ κ A) (q : ManyQuery Item V K A Row)

/-- The lookup values of the items that resolve to a replica set, in input order. -/
def lookupsFor (target : String) (items : List Item) : List V :=
  (items.filter fun item =>
    s.targetName? (q.route item) == some target).map q.lookup

theorem lookupsFor_concat (target : String) (items : List Item) (item : Item) :
    lookupsFor s q target (items ++ [item]) =
      lookupsFor s q target items ++
        if s.targetName? (q.route item) = some target then [q.lookup item]
        else [] := by
  unfold lookupsFor
  by_cases h : s.targetName? (q.route item) = some target <;> simp [h]

/-- The replica sets that some item resolves to, in the order of `ReplicaSets()`. -/
def queried (items : List Item) : List ρ :=
  s.mesh.replicaSets.filter fun r => !(lookupsFor s q (name r) items).isEmpty

theorem queried_names_nodup (items : List Item) :
    ((queried s q items).map name).Nodup :=
  s.mesh.names_nodup.sublist (List.filter_sublist.map name)

variable [GoAny K]

def sameKey (v w : V) : Bool := q.key v == q.key w

/-- The replica set and the lookup key of each item that resolves, in input order. -/
def targets (items : List Item) : List (String × K) :=
  items.filterMap fun item =>
    (s.targetName? (q.route item)).map (·, q.key (q.lookup item))

def samePair (x y : String × K) : Bool := x.1 == y.1 && x.2 == y.2

/-- The distinct pairs of a replica set and a lookup key, in first-occurrence order. -/
def distinctTargets (items : List Item) : List (String × K) :=
  (targets s q items).eraseDupsBy samePair

/-- The maps and the order list after the items. -/
structure Partitioned (items : List Item)
    (groups : GoMap String (ManyShardGroup ρ V K))
    (orderedItems : List (ManyOrderItem K)) : Prop where
  args : ∀ target, (GoMap.get? groups target).map ManyShardGroup.args =
    if lookupsFor s q target items = [] then none
    else some ((lookupsFor s q target items).eraseDupsBy (sameKey q))
  requested : ∀ target group, GoMap.get? groups target = some group →
    ∀ k, (GoMap.get? group.requested k).isSome =
      (lookupsFor s q target items).any fun v => q.key v == k
  shard : ∀ target group, GoMap.get? groups target = some group →
    group.shard.replicaSetName = target ∧
      group.shard.replicaSet ∈ s.mesh.replicaSets
  ordered : orderedItems.map (fun o => (o.shardName, o.key)) =
    distinctTargets s q items

theorem Partitioned.nil :
    Partitioned s q [] ([] : GoMap String (ManyShardGroup ρ V K)) [] where
  args _ := rfl
  requested _ _ h := by cases h
  shard _ _ h := by cases h
  ordered := rfl

variable {s q}

theorem samePair_trans (x y z : String × K) (hxy : samePair x y = true)
    (hyz : samePair y z = true) : samePair x z = true := by
  simp only [samePair, Bool.and_eq_true, beq_iff_eq] at hxy hyz ⊢
  exact ⟨hxy.1.trans hyz.1, PartialEquivBEq.trans hxy.2 hyz.2⟩

theorem samePair_symm (x y : String × K) (h : samePair x y = true) :
    samePair y x = true := by
  simp only [samePair, Bool.and_eq_true, beq_iff_eq] at h ⊢
  exact ⟨h.1.symm, PartialEquivBEq.symm h.2⟩

theorem sameKey_trans (u v w : V) (huv : sameKey q u v = true)
    (hvw : sameKey q v w = true) : sameKey q u w = true :=
  PartialEquivBEq.trans huv hvw

/-- A pair is known exactly when its key was requested from its replica set. -/
theorem any_targets (target : String) (k : K) (items : List Item) :
    (targets s q items).any (samePair (target, k)) =
      (lookupsFor s q target items).any fun v => q.key v == k := by
  rw [Bool.eq_iff_iff, List.any_eq_true, List.any_eq_true]
  simp only [targets, lookupsFor, samePair, List.mem_filterMap, List.mem_map,
    List.mem_filter, Option.map_eq_some_iff, Bool.and_eq_true, beq_iff_eq]
  constructor
  · rintro ⟨_, ⟨item, hitem, name, hname, rfl⟩, rfl, hkey⟩
    exact ⟨_, ⟨item, ⟨hitem, hname⟩, rfl⟩, PartialEquivBEq.symm hkey⟩
  · rintro ⟨_, ⟨item, ⟨hitem, hname⟩, rfl⟩, hkey⟩
    exact ⟨_, ⟨item, hitem, target, hname, rfl⟩, rfl, PartialEquivBEq.symm hkey⟩

theorem any_sameKey (q : ManyQuery Item V K A Row) (v : V) (values : List V) :
    values.any (sameKey q v) = values.any fun w => q.key w == q.key v := by
  congr 1
  funext w
  exact BEq.comm

/-- The lookup value of one more item, by whether its key was requested before. -/
theorem eraseDupsBy_lookupsFor_concat (items : List Item) {target : String}
    {item : Item} (htarget : s.targetName? (q.route item) = some target) :
    (lookupsFor s q target (items ++ [item])).eraseDupsBy (sameKey q) =
      (lookupsFor s q target items).eraseDupsBy (sameKey q) ++
        if (lookupsFor s q target items).any
          (fun v => q.key v == q.key (q.lookup item)) then [] else
            [q.lookup item] := by
  rw [lookupsFor_concat, if_pos htarget,
    eraseDupsBy_concat sameKey_trans, any_sameKey]

theorem distinctTargets_concat (items : List Item) {target : String}
    {item : Item} (htarget : s.targetName? (q.route item) = some target) :
    distinctTargets s q (items ++ [item]) =
      distinctTargets s q items ++
        if (lookupsFor s q target items).any
          (fun v => q.key v == q.key (q.lookup item)) then [] else
            [(target, q.key (q.lookup item))] := by
  have hpair : targets s q [item] = [(target, q.key (q.lookup item))] := by
    simp [targets, htarget]
  unfold distinctTargets
  rw [← any_targets, show targets s q (items ++ [item]) =
    targets s q items ++ [(target, q.key (q.lookup item))] by
      rw [← hpair]; exact List.filterMap_append,
    eraseDupsBy_concat samePair_trans]

/-- The group of a replica set, new or not, before an item is added to it. -/
structure GroupOf (target : String) (items : List Item)
    (group : ManyShardGroup ρ V K) (s : MeshStore ρ κ A)
    (q : ManyQuery Item V K A Row) : Prop where
  args : group.args = (lookupsFor s q target items).eraseDupsBy (sameKey q)
  requested : ∀ k, (GoMap.get? group.requested k).isSome =
    (lookupsFor s q target items).any fun v => q.key v == k
  shard : group.shard.replicaSetName = target ∧
    group.shard.replicaSet ∈ s.mesh.replicaSets

variable {items : List Item} {groups : GoMap String (ManyShardGroup ρ V K)}
  {orderedItems : List (ManyOrderItem K)}

theorem Partitioned.groupOf (h : Partitioned s q items groups orderedItems)
    {shard : ResolvedShard ρ} (hshard : shard.replicaSet ∈ s.mesh.replicaSets) :
    GroupOf shard.replicaSetName items
      ((GoMap.get? groups shard.replicaSetName).getD ⟨shard, [], []⟩) s q := by
  have hargs := h.args shard.replicaSetName
  cases hget : GoMap.get? groups shard.replicaSetName with
  | none =>
      rw [hget] at hargs
      have hnil : lookupsFor s q shard.replicaSetName items = [] := by
        by_contra hne
        rw [if_neg hne] at hargs
        cases hargs
      constructor
      · simp [hnil]
      · simp [hnil]
      · exact ⟨rfl, hshard⟩
  | some group =>
      rw [hget] at hargs
      constructor
      · by_cases hnil : lookupsFor s q shard.replicaSetName items = []
        · rw [if_pos hnil] at hargs
          cases hargs
        · rw [if_neg hnil] at hargs
          exact Option.some.inj hargs
      · exact h.requested _ group hget
      · exact h.shard _ group hget

/-- The group of the item's replica set is replaced by one that knows the item. -/
theorem Partitioned.set (h : Partitioned s q items groups orderedItems)
    {item : Item} {target : String}
    (htarget : s.targetName? (q.route item) = some target)
    {group : ManyShardGroup ρ V K}
    (hgroup : GroupOf target (items ++ [item]) group s q)
    {orderedItems' : List (ManyOrderItem K)}
    (hordered : orderedItems'.map (fun o => (o.shardName, o.key)) =
      distinctTargets s q (items ++ [item])) :
    Partitioned s q (items ++ [item]) (GoMap.set groups target group)
      orderedItems' := by
  have hother : ∀ other, target ≠ other →
      lookupsFor s q other (items ++ [item]) = lookupsFor s q other items := by
    intro other hne
    rw [lookupsFor_concat, htarget, if_neg (by simpa using hne), List.append_nil]
  constructor
  · intro other
    rw [GoMap.get?_set]
    by_cases heq : target = other
    · subst heq
      have hne : lookupsFor s q target (items ++ [item]) ≠ [] := by
        rw [lookupsFor_concat, if_pos htarget]
        simp
      rw [if_pos rfl, if_neg hne, ← hgroup.args]
      rfl
    · rw [if_neg heq, hother other heq]
      exact h.args other
  · intro other group' hget
    rw [GoMap.get?_set] at hget
    split at hget
    · rename_i heq
      cases hget
      exact heq ▸ hgroup.requested
    · rename_i hne
      rw [hother other hne]
      exact h.requested other group' hget
  · intro other group' hget
    rw [GoMap.get?_set] at hget
    split at hget
    · rename_i heq
      cases hget
      exact heq ▸ hgroup.shard
    · exact h.shard other group' hget
  · exact hordered

/-- One iteration of the loop, for an item that resolves. -/
theorem Partitioned.add (h : Partitioned s q items groups orderedItems)
    {item : Item} {shard : ResolvedShard ρ}
    (hresolve : s.resolve (ε := ε) (q.route item) = .ok shard)
    {group : ManyShardGroup ρ V K}
    (hgroup : group =
      (GoMap.get? groups shard.replicaSetName).getD ⟨shard, [], []⟩) :
    if (GoMap.get? group.requested (q.key (q.lookup item))).isSome then
      Partitioned s q (items ++ [item])
        (GoMap.set groups shard.replicaSetName group) orderedItems
    else
      Partitioned s q (items ++ [item])
        (GoMap.set groups shard.replicaSetName { group with
          args := group.args ++ [q.lookup item]
          requested := GoMap.set group.requested (q.key (q.lookup item)) () })
        (orderedItems ++ [⟨shard.replicaSetName, q.key (q.lookup item)⟩]) := by
  have htarget := MeshStore.targetName?_of_ok hresolve
  have hold := h.groupOf (MeshStore.replicaSet_mem_of_ok hresolve)
  rw [← hgroup] at hold
  have hargs := eraseDupsBy_lookupsFor_concat items htarget
  have hordered := distinctTargets_concat items htarget
  have hlookups := lookupsFor_concat s q shard.replicaSetName items item
  rw [if_pos htarget] at hlookups
  have hknown := hold.requested (q.key (q.lookup item))
  rw [← hknown] at hargs hordered
  split
  · rename_i hrequested
    rw [if_pos hrequested, List.append_nil] at hargs hordered
    apply h.set htarget
    · refine ⟨hargs ▸ hold.args, ?_, hold.shard⟩
      intro k
      rw [hold.requested k, hlookups, List.any_append]
      cases hk : q.key (q.lookup item) == k with
      | false => simp [hk]
      | true =>
          -- The key was requested before, so some earlier key equals it.
          rw [hrequested, eq_comm, List.any_eq_true] at hknown
          obtain ⟨v, hv, hvk⟩ := hknown
          have hany : ((lookupsFor s q shard.replicaSetName items).any
              fun v => q.key v == k) = true :=
            List.any_eq_true.mpr ⟨v, hv, PartialEquivBEq.trans hvk hk⟩
          rw [hany, Bool.true_or]
    · rw [hordered]
      exact h.ordered
  · rename_i hrequested
    rw [if_neg hrequested] at hargs hordered
    apply h.set htarget
    · refine ⟨?_, ?_, hold.shard⟩
      · rw [hargs, ← hold.args]
      · intro k
        rw [GoMap.isSome_get?_set, hold.requested k, hlookups, List.any_append,
          Bool.or_comm]
        simp
    · rw [hordered, List.map_append, h.ordered]
      rfl

variable (s q) in
/-- The items at which the loop stops with an error. -/
def Unacceptable : Option Item → Prop
  | none => True
  | some item => GoAny.hashable (q.key (q.lookup item)) = false ∨
      s.targetName? (q.route item) = none

variable (s q) in
/-- The loop partitions the input or stops at an item that is not acceptable. -/
def LoopResult (items : List Item) (rest : List (Option Item × Nat)) :
    Except (GoError ε)
      (GoMap String (ManyShardGroup ρ V K) × List (ManyOrderItem K)) → Prop
  | .ok (groups, orderedItems) =>
      ∃ more, rest.map Prod.fst = more.map some ∧
        Partitioned s q (items ++ more) groups orderedItems ∧
        ∀ entry ∈ rest, ¬Unacceptable s q entry.1
  | .error _ => ∃ entry ∈ rest, Unacceptable s q entry.1

theorem LoopResult.cons {item : Item} {inputIndex : Nat}
    {rest : List (Option Item × Nat)}
    {result : Except (GoError ε)
      (GoMap String (ManyShardGroup ρ V K) × List (ManyOrderItem K))}
    (haccepted : ¬Unacceptable s q (some item))
    (h : LoopResult s q (items ++ [item]) rest result) :
    LoopResult s q items ((some item, inputIndex) :: rest) result := by
  cases result with
  | ok state =>
      obtain ⟨more, hmore, hpartitioned, hrest⟩ := h
      refine ⟨item :: more, by simp [hmore], by simpa using hpartitioned, ?_⟩
      intro entry hentry
      rcases List.mem_cons.mp hentry with rfl | hentry
      · exact haccepted
      · exact hrest entry hentry
  | error err =>
      obtain ⟨entry, hentry, hbad⟩ := h
      exact ⟨entry, List.mem_cons_of_mem _ hentry, hbad⟩

theorem groupLookups_spec (rest : List (Option Item × Nat))
    (h : Partitioned s q items groups orderedItems) :
    LoopResult s q items rest
      (groupLookups (ε := ε) s q groups orderedItems rest) := by
  induction rest generalizing items groups orderedItems with
  | nil => exact ⟨[], rfl, by simpa using h, nofun⟩
  | cons entry rest ih =>
      obtain ⟨item?, inputIndex⟩ := entry
      cases item? with
      | none => exact ⟨_, List.mem_cons_self, trivial⟩
      | some item =>
          simp only [groupLookups]
          split
          · rename_i hkey
            exact ⟨_, List.mem_cons_self, .inl (by simpa using hkey)⟩
          · rename_i hkey
            cases hresolve : s.resolve (ε := ε) (q.route item) with
            | error routeErr =>
                exact ⟨_, List.mem_cons_self,
                  .inr (MeshStore.targetName?_of_error hresolve)⟩
            | ok shard =>
                have haccepted : ¬Unacceptable s q (some item) := by
                  rintro (hfalse | hnone)
                  · simp [hfalse] at hkey
                  · rw [MeshStore.targetName?_of_ok hresolve] at hnone
                    cases hnone
                apply LoopResult.cons haccepted
                have hadd := h.add hresolve rfl
                simp only
                split at hadd
                · rename_i hrequested
                  rw [if_pos hrequested]
                  exact ih hadd
                · rename_i hrequested
                  rw [if_neg hrequested]
                  exact ih hadd

/-- A list that passes the loop has no nil item and no unacceptable one. -/
theorem groupLookups_ok {arg : List (Option Item)}
    (h : groupLookups (ε := ε) s q [] [] arg.zipIdx = .ok (groups, orderedItems)) :
    ∃ items : List Item, arg = items.map some ∧
      Partitioned s q items groups orderedItems ∧
      ∀ item ∈ arg, ¬Unacceptable s q item := by
  have hspec := groupLookups_spec (ε := ε) arg.zipIdx (Partitioned.nil s q)
  rw [h] at hspec
  obtain ⟨items, hitems, hpartitioned, haccepted⟩ := hspec
  rw [List.zipIdx_map_fst] at hitems
  refine ⟨items, hitems, hpartitioned, ?_⟩
  intro item hitem
  rw [← List.zipIdx_map_fst 0 arg] at hitem
  obtain ⟨entry, hentry, rfl⟩ := List.mem_map.mp hitem
  exact haccepted entry hentry

end Spec

/-! ## The rows of each group -/

variable [GoAny K]

def nullKeyed (q : ManyQuery Item V K A Row) (row : Row) : Bool :=
  (q.resultKey row).isNone

def hasKey (q : ManyQuery Item V K A Row) (k : K) (row : Row) : Bool :=
  (q.resultKey row).any (· == k)

/-- A row that the loop over the results accepts. -/
def RowAccepted (q : ManyQuery Item V K A Row) (group : ManyShardGroup ρ V K)
    (row : Row) : Prop :=
  q.rowIsNil row = false ∧ ∀ k, q.resultKey row = some k →
    GoAny.hashable k = true ∧ (GoMap.get? group.requested k).isSome = true

section Collect

variable {q : ManyQuery Item V K A Row} {group : ManyShardGroup ρ V K}

/-- One iteration of the loop over the results of a group. -/
theorem collectRow_spec {row : Row} (h : RowAccepted q group row)
    (acc : ManyRows K Row ε) (resultIndex : Nat) :
    (collectRow q group acc row resultIndex).groupErrors = acc.groupErrors ∧
    (collectRow q group acc row resultIndex).unkeyedRows =
      acc.unkeyedRows ++ [row].filter (nullKeyed q) ∧
    ∀ k, GoMap.getD (collectRow q group acc row resultIndex).rowsByKey k [] =
      GoMap.getD acc.rowsByKey k [] ++ [row].filter (hasKey q k) := by
  unfold collectRow
  rw [if_neg (by simp [h.1])]
  cases hkey : q.resultKey row with
  | none => simp [nullKeyed, hasKey, hkey]
  | some k =>
      obtain ⟨hhashable, hrequested⟩ := h.2 k hkey
      simp only [hhashable, Bool.not_true, Bool.false_eq_true, if_false,
        Option.isNone_iff_eq_none, Option.isSome_iff_ne_none.mp hrequested]
      refine ⟨trivial, by simp [nullKeyed, hkey], ?_⟩
      intro k'
      rw [GoMap.getD_set]
      by_cases hk : (k == k') = true
      · rw [if_pos hk, GoMap.getD, GoMap.get?_congr _ hk]
        simp [GoMap.getD, hasKey, hkey, hk]
      · rw [if_neg hk]
        simp [hasKey, hkey, hk]

theorem collectRows_spec {rows : List (Row × Nat)}
    (h : ∀ entry ∈ rows, RowAccepted q group entry.1)
    (acc : ManyRows K Row ε) :
    (collectRows q group acc rows).groupErrors = acc.groupErrors ∧
    (collectRows q group acc rows).unkeyedRows =
      acc.unkeyedRows ++ (rows.map Prod.fst).filter (nullKeyed q) ∧
    ∀ k, GoMap.getD (collectRows q group acc rows).rowsByKey k [] =
      GoMap.getD acc.rowsByKey k [] ++ (rows.map Prod.fst).filter (hasKey q k) := by
  induction rows generalizing acc with
  | nil => simp [collectRows]
  | cons entry rows ih =>
      obtain ⟨row, resultIndex⟩ := entry
      obtain ⟨herrors, hunkeyed, hkeyed⟩ :=
        collectRow_spec (h _ List.mem_cons_self) acc resultIndex
      obtain ⟨herrors', hunkeyed', hkeyed'⟩ :=
        ih (fun entry hentry => h entry (List.mem_cons_of_mem _ hentry))
          (collectRow q group acc row resultIndex)
      have hsplit : ∀ p : Row → Bool,
          (((row, resultIndex) :: rows).map Prod.fst).filter p =
            [row].filter p ++ (rows.map Prod.fst).filter p := by
        intro p
        rw [← List.filter_append]
        rfl
      refine ⟨herrors'.trans herrors, ?_, ?_⟩
      · rw [collectRows, hunkeyed', hunkeyed, hsplit, List.append_assoc]
      · intro k
        rw [collectRows, hkeyed', hkeyed, hsplit, List.append_assoc]

theorem collectGroups_spec
    {entries : List (ManyShardGroup ρ V K × ManyResult Row ε)}
    (haccepted : ∀ entry ∈ entries, ∀ row ∈ entry.2.value,
      RowAccepted q entry.1 row)
    (hnodup : (entries.map fun entry => entry.1.shard.replicaSetName).Nodup)
    (acc : ManyMerge K Row ε) :
    (collectGroups q acc entries).groupErrors = acc.groupErrors ∧
    (collectGroups q acc entries).unkeyedRows = acc.unkeyedRows ++
      entries.flatMap (fun entry => entry.2.value.filter (nullKeyed q)) ∧
    (∀ entry ∈ entries, ∀ k,
      GoMap.getD (GoMap.getD (collectGroups q acc entries).rowsByGroup
        entry.1.shard.replicaSetName []) k [] =
          entry.2.value.filter (hasKey q k)) ∧
    ∀ shardName, shardName ∉ entries.map (fun e => e.1.shard.replicaSetName) →
      GoMap.getD (collectGroups q acc entries).rowsByGroup shardName [] =
        GoMap.getD acc.rowsByGroup shardName [] := by
  induction entries generalizing acc with
  | nil => simp [collectGroups]
  | cons entry entries ih =>
      obtain ⟨group, result⟩ := entry
      obtain ⟨hfresh, hrest⟩ := List.nodup_cons.mp hnodup
      have hrows : ∀ entry ∈ result.value.zipIdx, RowAccepted q group entry.1 := by
        intro entry hentry
        apply haccepted _ List.mem_cons_self
        rw [← List.zipIdx_map_fst 0 result.value]
        exact List.mem_map_of_mem hentry
      obtain ⟨herrors, hunkeyed, hkeyed⟩ := collectRows_spec hrows
        (⟨[], acc.unkeyedRows, acc.groupErrors⟩ : ManyRows K Row ε)
      rw [List.zipIdx_map_fst] at hunkeyed
      simp only [List.zipIdx_map_fst] at hkeyed
      obtain ⟨herrors', hunkeyed', hkeyed', hother⟩ :=
        ih (fun entry hentry => haccepted entry (List.mem_cons_of_mem _ hentry))
          hrest ⟨GoMap.set acc.rowsByGroup group.shard.replicaSetName
            (collectRows q group ⟨[], acc.unkeyedRows, acc.groupErrors⟩
              result.value.zipIdx).rowsByKey,
            (collectRows q group ⟨[], acc.unkeyedRows, acc.groupErrors⟩
              result.value.zipIdx).unkeyedRows,
            (collectRows q group ⟨[], acc.unkeyedRows, acc.groupErrors⟩
              result.value.zipIdx).groupErrors⟩
      simp only [collectGroups]
      refine ⟨herrors'.trans herrors, ?_, ?_, ?_⟩
      · rw [hunkeyed', hunkeyed, List.flatMap_cons, List.append_assoc]
      · intro entry hentry k
        rcases List.mem_cons.mp hentry with rfl | hentry
        · rw [hother _ hfresh, GoMap.getD_set, if_pos (by simp), hkeyed]
          rfl
        · exact hkeyed' entry hentry k
      · intro shardName hshard
        rw [List.map_cons, List.mem_cons, not_or] at hshard
        rw [hother _ hshard.2, GoMap.getD_set,
          if_neg (by simpa using Ne.symm hshard.1)]

end Collect

/-! ## The whole method -/

section Method

variable (s : MeshStore ρ κ A) (q : ManyQuery Item V K A Row)

/-- The rows in the order of the input, when `rowsOf` has the rows of each replica set. -/
def merged (rowsOf : String → List Row) (items : List Item) : List Row :=
  ((distinctTargets s q items).flatMap fun x =>
      (rowsOf x.1).filter (hasKey q x.2)) ++
    (queried s q items).flatMap fun r => (rowsOf (name r)).filter (nullKeyed q)

/-- A row whose lookup key was requested from the replica set, or is NULL. -/
def RowRequested (items : List Item) (target : String) (row : Row) : Prop :=
  q.rowIsNil row = false ∧ ∀ k ∈ q.resultKey row,
    ∃ v ∈ lookupsFor s q target items, (q.key v == k) = true

instance (items : List Item) (target : String) (row : Row) :
    Decidable (RowRequested s q items target row) :=
  inferInstanceAs (Decidable (q.rowIsNil row = false ∧ ∀ k ∈ q.resultKey row,
    ∃ v ∈ lookupsFor s q target items, (q.key v == k) = true))

structure PlanOf (items : List Item) (plan : ManyPlan ρ V K) : Prop where
  groups : plan.groups.map (fun g => (g.shard.replicaSet, g.args)) =
    (queried s q items).map fun r =>
      (r, (lookupsFor s q (name r) items).eraseDupsBy (sameKey q))
  requested : ∀ group ∈ plan.groups, ∀ k,
    (GoMap.get? group.requested k).isSome =
      (lookupsFor s q group.shard.replicaSetName items).any (q.key · == k)
  ordered : plan.orderedItems.map (fun o => (o.shardName, o.key)) =
    distinctTargets s q items

variable {s q} {items : List Item}

theorem Partitioned.populated_eq {groups : GoMap String (ManyShardGroup ρ V K)}
    {orderedItems : List (ManyOrderItem K)}
    (h : Partitioned s q items groups orderedItems) :
    (populated s.mesh groups).map (fun g => (g.shard.replicaSet, g.args)) =
      (queried s q items).map fun r =>
        (r, (lookupsFor s q (name r) items).eraseDupsBy (sameKey q)) := by
  unfold populated queried
  rw [List.map_filterMap]
  apply filterMap_eq_map_filter
  intro r hr
  have hargs := h.args (name r)
  cases hget : GoMap.get? groups (name r) with
  | none =>
      rw [hget] at hargs
      by_cases hnil : lookupsFor s q (name r) items = []
      · simp [hnil]
      · rw [if_neg hnil] at hargs
        cases hargs
  | some group =>
      obtain ⟨hname, hmem⟩ := h.shard (name r) group hget
      have hset : group.shard.replicaSet = r := s.mesh.name_inj _ hmem r hr hname
      rw [hget] at hargs
      by_cases hnil : lookupsFor s q (name r) items = []
      · rw [if_pos hnil] at hargs
        cases hargs
      · rw [if_neg hnil] at hargs
        have hargs : group.args = _ := Option.some.inj hargs
        simp [hset, hargs, hnil]

/-- Every pair of the order list is one of a replica set that is queried. -/
theorem mem_queried_of_target {x : String × K}
    (hx : x ∈ distinctTargets s q items) :
    ∃ r ∈ queried s q items, name r = x.1 := by
  have hmem : x ∈ targets s q items := (eraseDupsBy_sublist _).subset hx
  obtain ⟨item, hitem, hsome⟩ := List.mem_filterMap.mp hmem
  obtain ⟨target, htarget, rfl⟩ := Option.map_eq_some_iff.mp hsome
  obtain ⟨r, hr, rfl⟩ := Option.map_eq_some_iff.mp htarget
  refine ⟨r, List.mem_filter.mpr ⟨Mesh.target?_mem hr, ?_⟩, rfl⟩
  have hlookup : q.lookup item ∈ lookupsFor s q (name r) items :=
    List.mem_map_of_mem (List.mem_filter.mpr ⟨hitem, by simp [htarget]⟩)
  simpa using List.ne_nil_of_mem hlookup

theorem groupLookups_of_accepted
    (haccepted : ∀ item ∈ items, ¬Unacceptable s q (some item)) :
    ∃ groups orderedItems,
      groupLookups (ε := ε) s q [] [] (items.map some).zipIdx =
        .ok (groups, orderedItems) ∧
      Partitioned s q items groups orderedItems := by
  have hspec := groupLookups_spec (ε := ε) (items.map some).zipIdx
    (Partitioned.nil s q)
  have hfst : (items.map some).zipIdx.map Prod.fst = items.map some :=
    List.zipIdx_map_fst 0 _
  cases hloop : groupLookups (ε := ε) s q [] [] (items.map some).zipIdx with
  | error err =>
      rw [hloop] at hspec
      obtain ⟨entry, hentry, hbad⟩ := hspec
      have hmem : entry.1 ∈ items.map some := by
        rw [← hfst]
        exact List.mem_map_of_mem hentry
      obtain ⟨item, hitem, heq⟩ := List.mem_map.mp hmem
      rw [← heq] at hbad
      exact absurd hbad (haccepted item hitem)
  | ok state =>
      obtain ⟨groups, orderedItems⟩ := state
      obtain ⟨more, hmore, hpartitioned, -⟩ := groupLookups_ok hloop
      obtain rfl : items = more := List.map_injective_iff.mpr
        (fun _ _ => Option.some.inj) hmore
      exact ⟨groups, orderedItems, rfl, hpartitioned⟩

theorem Partitioned.populated_length {groups : GoMap String (ManyShardGroup ρ V K)}
    {orderedItems : List (ManyOrderItem K)}
    (h : Partitioned s q items groups orderedItems) :
    (populated s.mesh groups).length = (queried s q items).length := by
  simpa using congrArg List.length h.populated_eq

theorem manyPlan_ok {options : QueryOptions}
    (haccepted : ∀ item ∈ items, ¬Unacceptable s q (some item))
    (htx : options.tx = true → (queried s q items).length ≤ 1) :
    ∃ plan, manyPlan (ε := ε) s q (items.map some) options = .ok plan ∧
      PlanOf s q items plan := by
  obtain ⟨groups, orderedItems, hloop, hpartitioned⟩ :=
    groupLookups_of_accepted (ε := ε) haccepted
  have hsingle : ¬(options.tx && decide ((populated s.mesh groups).length > 1)) =
      true := by
    simp only [Bool.and_eq_true, decide_eq_true_eq, hpartitioned.populated_length]
    rintro ⟨htrue, hmany⟩
    have := htx htrue
    omega
  refine ⟨⟨routeMode q.kind options, populated s.mesh groups, orderedItems⟩,
    by simp only [manyPlan, hloop, if_neg hsingle], hpartitioned.populated_eq, ?_,
    hpartitioned.ordered⟩
  intro group hgroup k
  obtain ⟨r, -, hget⟩ := List.mem_filterMap.mp hgroup
  rw [(hpartitioned.shard _ group hget).1]
  exact hpartitioned.requested _ group hget k

theorem manyPlan_crosses {options : QueryOptions}
    (haccepted : ∀ item ∈ items, ¬Unacceptable s q (some item))
    (htx : options.tx = true) (hmany : 1 < (queried s q items).length) :
    manyPlan (ε := ε) s q (items.map some) options = .error errCrossShardTransaction := by
  obtain ⟨groups, orderedItems, hloop, hpartitioned⟩ :=
    groupLookups_of_accepted (ε := ε) haccepted
  simp [manyPlan, hloop, htx, hpartitioned.populated_length, hmany]

theorem PlanOf.names {plan : ManyPlan ρ V K} (h : PlanOf s q items plan) :
    plan.groups.map (·.shard.replicaSetName) = (queried s q items).map name := by
  have hnames := congrArg (List.map fun x => name x.1) h.groups
  rw [List.map_map, List.map_map] at hnames
  exact hnames

/-- Each group with the rows that its replica set has returned. -/
def answered (rowsOf : String → List Row) (groups : List (ManyShardGroup ρ V K)) :
    List (ManyShardGroup ρ V K × ManyResult Row ε) :=
  groups.map fun g => (g, ⟨rowsOf g.shard.replicaSetName, none⟩)

omit [GoAny K] in
theorem answered_names (rowsOf : String → List Row)
    (groups : List (ManyShardGroup ρ V K)) :
    (answered (ε := ε) rowsOf groups).map (fun e => e.1.shard.replicaSetName) =
      groups.map (·.shard.replicaSetName) := by
  unfold answered
  rw [List.map_map]
  rfl

section Merge

variable {plan : ManyPlan ρ V K} {rowsOf : String → List Row}
  (h : PlanOf s q items plan)
  (hrows : ∀ r ∈ queried s q items, ∀ row ∈ rowsOf (name r),
    RowRequested s q items (name r) row)

include h hrows

theorem PlanOf.accepted :
    ∀ entry ∈ answered (ε := ε) rowsOf plan.groups, ∀ row ∈ entry.2.value,
      RowAccepted q entry.1 row := by
  intro entry hentry row hrow
  obtain ⟨group, hgroup, rfl⟩ := List.mem_map.mp hentry
  have hmem : group.shard.replicaSetName ∈ (queried s q items).map name := by
    rw [← h.names]
    exact List.mem_map_of_mem hgroup
  obtain ⟨r, hr, hname⟩ := List.mem_map.mp hmem
  rw [← hname] at hrow
  obtain ⟨hnil, hkeys⟩ := hrows r hr row hrow
  refine ⟨hnil, ?_⟩
  intro k hk
  obtain ⟨v, hv, hvk⟩ := hkeys k hk
  refine ⟨GoAny.hashable_of_beq hvk, ?_⟩
  rw [h.requested group hgroup, List.any_eq_true, ← hname]
  exact ⟨v, hv, hvk⟩

/-- The method once every physical query has returned its rows. -/
theorem PlanOf.mergeManyResults_eq :
    mergeManyResults q plan ((answered (ε := ε) rowsOf plan.groups).map Prod.snd) =
      (merged s q rowsOf items, none) := by
  have hnodup : ((answered (ε := ε) rowsOf plan.groups).map
      fun e => e.1.shard.replicaSetName).Nodup := by
    rw [answered_names, h.names]
    exact queried_names_nodup s q items
  obtain ⟨herrors, hunkeyed, hkeyed, -⟩ :=
    collectGroups_spec (h.accepted (ε := ε) hrows) hnodup ⟨[], [], []⟩
  have hzip : plan.groups.zip ((answered (ε := ε) rowsOf plan.groups).map Prod.snd) =
      answered rowsOf plan.groups := by
    unfold answered
    rw [List.map_map]
    exact List.map_prod_left_eq_zip.symm
  have hsucceeded : (answered (ε := ε) rowsOf plan.groups).filterMap (fun x =>
      x.2.err.map (shardError q.methodName x.1.shard.replicaSetName)) = [] := by
    simp [answered]
  have hordered : (plan.orderedItems.flatMap fun o =>
      GoMap.getD (GoMap.getD (collectGroups q ⟨[], [], []⟩
        (answered (ε := ε) rowsOf plan.groups)).rowsByGroup o.shardName [])
          o.key []) =
      (distinctTargets s q items).flatMap fun x =>
        (rowsOf x.1).filter (hasKey q x.2) := by
    rw [← h.ordered, List.flatMap_map]
    apply List.flatMap_congr
    intro o ho
    have hmem : (o.shardName, o.key) ∈ distinctTargets s q items := by
      rw [← h.ordered]
      exact List.mem_map_of_mem ho
    obtain ⟨r, hr, hname⟩ := mem_queried_of_target hmem
    have hgroup : o.shardName ∈ plan.groups.map (·.shard.replicaSetName) := by
      rw [h.names]
      exact List.mem_map.mpr ⟨r, hr, hname⟩
    obtain ⟨group, hgroup, heq⟩ := List.mem_map.mp hgroup
    have hrow := hkeyed _ (List.mem_map_of_mem hgroup) o.key
    rw [heq] at hrow
    exact hrow
  have hnull : ((answered (ε := ε) rowsOf plan.groups).flatMap fun entry =>
      entry.2.value.filter (nullKeyed q)) =
      (queried s q items).flatMap fun r =>
        (rowsOf (name r)).filter (nullKeyed q) := by
    have hnames := congrArg (List.flatMap fun shardName =>
      (rowsOf shardName).filter (nullKeyed q)) h.names
    rw [List.flatMap_map, List.flatMap_map] at hnames
    unfold answered
    rw [List.flatMap_map, ← hnames]
  unfold mergeManyResults
  simp only [hzip, hsucceeded, GoError.join_nil, herrors, hunkeyed, hordered, hnull,
    List.nil_append, merged]

end Merge

/-! ## No row is lost or duplicated -/

variable (s q) in
/-- All rows that came back, each with the name of its replica set. -/
def returnedRows (rowsOf : String → List Row) (items : List Item) :
    List (String × Row) :=
  (queried s q items).flatMap fun r => (rowsOf (name r)).map (name r, ·)

/-- The rows that belong to a pair of the order list. -/
def belongs (q : ManyQuery Item V K A Row) (x : String × K) (y : String × Row) :
    Bool :=
  y.1 == x.1 && hasKey q x.2 y.2

theorem filter_tagged_rows {sets : List ρ} (hnodup : (sets.map name).Nodup)
    (rowsOf : String → List Row) (f : Row → Bool) {target : String}
    (htarget : target ∈ sets.map name) :
    ((sets.flatMap fun r => (rowsOf (name r)).map (name r, ·)).filter
      fun y => y.1 == target && f y.2) = ((rowsOf target).filter f).map (target, ·) := by
  induction sets with
  | nil => cases htarget
  | cons r sets ih =>
      obtain ⟨hfresh, hrest⟩ := List.nodup_cons.mp hnodup
      rw [List.flatMap_cons, List.filter_append]
      rcases List.mem_cons.mp htarget with rfl | htarget
      · have hnone : ((sets.flatMap fun r => (rowsOf (name r)).map (name r, ·)).filter
            fun y => y.1 == name r && f y.2) = [] := by
          apply List.filter_eq_nil_iff.mpr
          intro y hy
          obtain ⟨r', hr', hmem⟩ := List.mem_flatMap.mp hy
          obtain ⟨row, -, rfl⟩ := List.mem_map.mp hmem
          have hne : name r' ≠ name r := by
            intro heq
            exact hfresh (heq ▸ List.mem_map_of_mem hr')
          simp [hne]
        rw [hnone, List.append_nil, List.filter_map]
        simp [Function.comp_def]
      · have hne : name r ≠ target := by
          rintro rfl
          exact hfresh htarget
        have hnone : ((rowsOf (name r)).map (name r, ·)).filter
            (fun y => y.1 == target && f y.2) = [] := by
          simp [hne]
        rw [hnone, List.nil_append, ih hrest htarget]

theorem belongs_disjoint (items : List Item) :
    (distinctTargets s q items).Pairwise fun x z =>
      ∀ y, belongs q x y = true → belongs q z y = false := by
  apply (eraseDupsBy_pairwise (r := samePair) (targets s q items)).imp
  intro x z hxz y hx
  by_contra hz
  simp only [belongs, hasKey, Bool.and_eq_true, Bool.not_eq_false, beq_iff_eq,
    Option.any_eq_true] at hx hz
  obtain ⟨hname, k, hk, hkx⟩ := hx
  obtain ⟨hname', k', hk', hkz⟩ := hz
  rw [hk] at hk'
  cases hk'
  have hsame : samePair z x = true := by
    simp only [samePair, Bool.and_eq_true, beq_iff_eq]
    exact ⟨hname'.symm.trans hname,
      PartialEquivBEq.trans (PartialEquivBEq.symm hkz) hkx⟩
  rw [hxz] at hsame
  cases hsame

/-- Every row with a lookup key belongs to a pair of the order list. -/
theorem exists_belongs {rowsOf : String → List Row}
    (hrows : ∀ r ∈ queried s q items, ∀ row ∈ rowsOf (name r),
      RowRequested s q items (name r) row) :
    ∀ y ∈ (returnedRows s q rowsOf items).filter (!nullKeyed q ·.2),
      ∃ x ∈ distinctTargets s q items, belongs q x y = true := by
  intro y hy
  obtain ⟨hmem, hkey⟩ := List.mem_filter.mp hy
  obtain ⟨r, hr, hmem⟩ := List.mem_flatMap.mp hmem
  obtain ⟨row, hrow, rfl⟩ := List.mem_map.mp hmem
  cases hk : q.resultKey row with
  | none => simp [nullKeyed, hk] at hkey
  | some k =>
      obtain ⟨v, hv, hvk⟩ := (hrows r hr row hrow).2 k hk
      obtain ⟨item, hitem, rfl⟩ := List.mem_map.mp hv
      obtain ⟨hitem, htarget⟩ := List.mem_filter.mp hitem
      have hpair : (name r, q.key (q.lookup item)) ∈ targets s q items := by
        apply List.mem_filterMap.mpr
        exact ⟨item, hitem, by simp [beq_iff_eq.mp htarget]⟩
      have hsame : samePair (name r, q.key (q.lookup item)) (name r, k) = true := by
        simp [samePair, hvk]
      obtain ⟨x, hx, hxk⟩ :=
        exists_mem_eraseDupsBy samePair_trans samePair_symm hpair hsame
      simp only [samePair, Bool.and_eq_true, beq_iff_eq] at hxk
      refine ⟨x, hx, ?_⟩
      simp only [belongs, hasKey, hk, Option.any_some, Bool.and_eq_true, beq_iff_eq]
      exact ⟨hxk.1.symm, PartialEquivBEq.symm hxk.2⟩

theorem filter_belongs {rowsOf : String → List Row} {x : String × K}
    (hx : x ∈ distinctTargets s q items) :
    (((returnedRows s q rowsOf items).filter (!nullKeyed q ·.2)).filter
        (belongs q x)).map Prod.snd =
      (rowsOf x.1).filter (hasKey q x.2) := by
  have hkeyed : ((returnedRows s q rowsOf items).filter (!nullKeyed q ·.2)).filter
      (belongs q x) = (returnedRows s q rowsOf items).filter (belongs q x) := by
    rw [List.filter_filter]
    apply List.filter_congr
    intro y _
    cases hk : q.resultKey y.2 with
    | none => simp [belongs, hasKey, hk]
    | some k => simp [nullKeyed, hk]
  obtain ⟨r, hr, hname⟩ := mem_queried_of_target hx
  have hrows := filter_tagged_rows (queried_names_nodup s q items) rowsOf
    (hasKey q x.2) (List.mem_map.mpr ⟨r, hr, hname⟩)
  rw [hkeyed]
  unfold returnedRows belongs
  rw [hrows, List.map_map]
  simp [Function.comp_def]

theorem merged_perm {rowsOf : String → List Row}
    (hrows : ∀ r ∈ queried s q items, ∀ row ∈ rowsOf (name r),
      RowRequested s q items (name r) row) :
    (merged s q rowsOf items).Perm
      ((queried s q items).flatMap fun r => rowsOf (name r)) := by
  have hkeyed : ((distinctTargets s q items).flatMap fun x =>
      (rowsOf x.1).filter (hasKey q x.2)) =
      ((distinctTargets s q items).flatMap fun x =>
        ((returnedRows s q rowsOf items).filter (!nullKeyed q ·.2)).filter
          (belongs q x)).map Prod.snd := by
    rw [List.map_flatMap]
    apply List.flatMap_congr
    intro x hx
    exact (filter_belongs hx).symm
  have hnull : ((queried s q items).flatMap fun r =>
      (rowsOf (name r)).filter (nullKeyed q)) =
      ((returnedRows s q rowsOf items).filter (nullKeyed q ·.2)).map Prod.snd := by
    unfold returnedRows
    rw [List.filter_flatMap, List.map_flatMap]
    simp [List.filter_map, Function.comp_def]
  have hall : ((queried s q items).flatMap fun r => rowsOf (name r)) =
      (returnedRows s q rowsOf items).map Prod.snd := by
    unfold returnedRows
    rw [List.map_flatMap]
    simp [Function.comp_def]
  unfold merged
  rw [hkeyed, hnull, hall, ← List.map_append]
  apply List.Perm.map
  have hclasses := flatMap_filter_perm (belongs_disjoint items)
    (exists_belongs hrows)
  have hsplit := List.filter_append_perm (fun y => nullKeyed q y.2)
    (returnedRows s q rowsOf items)
  exact (hclasses.append_right _).trans (List.perm_append_comm.trans hsplit)

/-- The whole method, when every physical query returns rows that were asked for. -/
theorem groupedMany_eq {options : QueryOptions}
    (haccepted : ∀ item ∈ items, ¬Unacceptable s q (some item))
    (htx : options.tx = true → (queried s q items).length ≤ 1)
    (rowsOf : String → List Row)
    (hrows : ∀ r ∈ queried s q items, ∀ row ∈ rowsOf (name r),
      RowRequested s q items (name r) row) :
    ∃ plan, manyPlan (ε := ε) s q (items.map some) options = .ok plan ∧
      PlanOf s q items plan ∧
      ∀ completions : List (Nat × ManyResult Row ε),
        Completes (plan.groups.map fun g => ⟨rowsOf g.shard.replicaSetName, none⟩)
          completions →
        groupedMany s q (items.map some) options completions =
          (merged s q rowsOf items, none) := by
  obtain ⟨plan, hplan, hof⟩ := manyPlan_ok (ε := ε) haccepted htx
  refine ⟨plan, hplan, hof, ?_⟩
  intro completions hcompletes
  have hanswered : (answered (ε := ε) rowsOf plan.groups).map Prod.snd =
      plan.groups.map fun g => ⟨rowsOf g.shard.replicaSetName, none⟩ := by
    unfold answered
    rw [List.map_map]
    rfl
  unfold groupedMany
  rw [hplan]
  by_cases hnil : plan.groups = []
  · have hqueried : queried s q items = [] := by
      have hnames := hof.names
      rw [hnil] at hnames
      exact List.map_eq_nil_iff.mp hnames.symm
    have htargets : distinctTargets s q items = [] := by
      apply List.eq_nil_iff_forall_not_mem.mpr
      intro x hx
      obtain ⟨r, hr, -⟩ := mem_queried_of_target hx
      rw [hqueried] at hr
      cases hr
    simp [hnil, merged, hqueried, htargets]
  · simp only [List.length_eq_zero_iff, if_neg hnil]
    rw [fill_of_completes hcompletes (by simp), ← hanswered,
      hof.mergeManyResults_eq hrows]

end Method

/--
The merge of a grouped `:many` query.  Every replica set receives the distinct
lookup values routed to it.  When each returns only rows that were requested
from it or have a NULL lookup key, the result lists the rows by the distinct
pairs of the input and then the rows without a key, for every order in which
the physical queries complete, and no row is lost or duplicated.
-/
theorem grouped_many_merge_is_exact (s : MeshStore ρ κ A)
    (q : ManyQuery Item V K A Row) (items : List Item) (options : QueryOptions)
    (hkeys : ∀ item ∈ items, GoAny.hashable (q.key (q.lookup item)) = true)
    (hresolve : ∀ item ∈ items, s.targetName? (q.route item) ≠ none)
    (htx : options.tx = true → (queried s q items).length ≤ 1)
    (rowsOf : String → List Row)
    (hrows : ∀ r ∈ queried s q items, ∀ row ∈ rowsOf (name r),
      RowRequested s q items (name r) row) :
    ∃ plan, manyPlan (ε := ε) s q (items.map some) options = .ok plan ∧
      plan.groups.map (fun g => (g.shard.replicaSet, g.args)) =
        (queried s q items).map (fun r =>
          (r, (lookupsFor s q (name r) items).eraseDupsBy (sameKey q))) ∧
      (∀ completions : List (Nat × ManyResult Row ε),
        Completes (plan.groups.map fun g => ⟨rowsOf g.shard.replicaSetName, none⟩)
          completions →
        groupedMany s q (items.map some) options completions =
          (((distinctTargets s q items).flatMap fun x =>
              (rowsOf x.1).filter (hasKey q x.2)) ++
            (queried s q items).flatMap fun r =>
              (rowsOf (name r)).filter (nullKeyed q), none)) ∧
      (((distinctTargets s q items).flatMap fun x =>
          (rowsOf x.1).filter (hasKey q x.2)) ++
        (queried s q items).flatMap fun r =>
          (rowsOf (name r)).filter (nullKeyed q)).Perm
        ((queried s q items).flatMap fun r => rowsOf (name r)) := by
  have haccepted : ∀ item ∈ items, ¬Unacceptable s q (some item) := by
    rintro item hitem (hfalse | hnone)
    · rw [hkeys item hitem] at hfalse
      cases hfalse
    · exact hresolve item hitem hnone
  obtain ⟨plan, hplan, hof, hmerge⟩ := groupedMany_eq (ε := ε) haccepted htx rowsOf hrows
  exact ⟨plan, hplan, hof.groups, hmerge, merged_perm hrows⟩

/-! ## A query over two sites

Rows are known by their lookup key and a serial number.
-/

structure SiteKey where
  id : Nat
  deriving DecidableEq, Repr

instance : GoAny SiteKey := GoAny.ofDecidableEq SiteKey "int64"

def siteMany : ManyQuery (Nat × Nat) Nat SiteKey Nat (Option SiteKey × Nat) where
  methodName := "ListNumbers"
  kind := .read
  route := Prod.fst
  lookup := Prod.snd
  key := SiteKey.mk
  rowIsNil _ := false
  resultKey := Prod.fst

def siteItems : List (Nat × Nat) :=
  [(1, 20), (0, 10), (1, 99), (1, 21), (0, 10), (0, 12)]

def siteRows (shardName : String) : List (Option SiteKey × Nat) :=
  if shardName = "east" then [(some ⟨12⟩, 0), (some ⟨10⟩, 1), (none, 2)]
  else [(some ⟨21⟩, 3), (some ⟨20⟩, 4), (some ⟨20⟩, 5)]

theorem grouped_many_merge_is_exact_two_sites :
    groupedMany (ε := Unit) siteStore siteMany (siteItems.map some) ⟨false, false⟩
      [(1, ⟨siteRows "west", none⟩), (0, ⟨siteRows "east", none⟩)] =
      ([(some ⟨20⟩, 4), (some ⟨20⟩, 5), (some ⟨10⟩, 1), (some ⟨21⟩, 3),
        (some ⟨12⟩, 0), (none, 2)], none) := by
  have hrows : ∀ r ∈ queried siteStore siteMany siteItems,
      ∀ row ∈ siteRows (name r), RowRequested siteStore siteMany siteItems (name r)
        row := by
    decide
  obtain ⟨plan, hplan, -, hmerge, -⟩ := grouped_many_merge_is_exact (ε := Unit)
    siteStore siteMany siteItems ⟨false, false⟩ (by decide) (by decide) nofun siteRows
    hrows
  cases hplan
  exact hmerge _ (.swap _ _ _)

end PgMesh.Store
