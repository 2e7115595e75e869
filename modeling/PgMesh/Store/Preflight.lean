import PgMesh.Store.AsyncCopy
import PgMesh.Store.Calls
import PgMesh.Store.ManyMerge

/-!
# What a call does with a transaction, and what it rejects

A call in a transaction executes all its statements there.  A call over
several replica sets routes its whole input before anything else, so that one
that is rejected has executed nothing.
-/

namespace PgMesh.Store

open PgMesh.Foundation
open PgMesh.Topology

variable {δ τ S V ε κ A : Type}

/-! ## Requests inside a transaction -/

/-- Only the transaction executes statements, and no read counter advances. -/
def Request.InTransaction (tx : τ) : Request δ τ S → Prop
  | .add _ => False
  | .startPhysicalQuerySpan _ _ => True
  | .execute queries _ => queries.db = .tx tx

section Asks

variable [Inhabited V] {spec : QuerySpec ε} {options : CallOptions τ} {tx : τ}

/-- `WithTx` drops the mirrors and moves reads to the transaction as well. -/
theorem Target.write_inTransaction (htx : options.tx = some tx) (traced : Bool)
    (t : Target δ τ) (arg : S) :
    (t.write (V := V) spec options traced arg).Asks (Request.InTransaction tx) := by
  simp only [Target.write, htx]
  apply Target.span_asks trivial
  apply QueryStore.call_asks
  · rfl
  · rfl
  · intro q' hq'
    cases hq'

theorem Target.query_inTransaction (htx : options.tx = some tx) (traced : Bool)
    (t : Target δ τ) (arg : S) :
    (t.query (V := V) spec options traced arg).Asks (Request.InTransaction tx) := by
  unfold Target.query
  cases spec.kind with
  | read =>
      simp only [Target.read, htx]
      exact Target.write_inTransaction htx traced t arg
  | write => exact Target.write_inTransaction htx traced t arg

end Asks

/-! ## Query options -/

/-- The last option that sets a transaction sets this one. -/
def LastTx (storeOptions : List (Option (QueryOption τ))) (tx : τ) : Prop :=
  ∃ before after, storeOptions = before ++ some (.withTx (some tx)) :: after ∧
    ∀ option, some (.withTx option) ∉ after

theorem foldl_apply_tx (storeOptions : List (Option (QueryOption τ)))
    (options : CallOptions τ) (h : ∀ option, some (.withTx option) ∉ storeOptions) :
    (storeOptions.foldl applyQueryOption options).tx = options.tx := by
  induction storeOptions generalizing options with
  | nil => rfl
  | cons option rest ih =>
      have hrest := fun o => List.not_mem_of_not_mem_cons (h o)
      rw [List.foldl_cons, ih _ hrest]
      cases option with
      | none => rfl
      | some option =>
          cases option with
          | readFromPrimary => rfl
          | withTx tx => exact absurd List.mem_cons_self (h tx)

theorem LastTx.tx_eq {storeOptions : List (Option (QueryOption τ))} {tx : τ}
    (h : LastTx storeOptions tx) : (applyQueryOptions storeOptions).tx = some tx := by
  obtain ⟨before, after, rfl, hafter⟩ := h
  unfold applyQueryOptions
  rw [List.foldl_append, List.foldl_cons, foldl_apply_tx after _ hafter]
  rfl

/-! ## Confinement -/

/-- Whatever the goroutines have done, they have done it in the transaction. -/
def ConfinedTo {α : Type} (tx : τ) (goroutines : List (Method δ τ S V ε α)) : Prop :=
  ∀ (cursors : Cursors) (pool : Pool Cursors _ _ α),
    Pool.Reaches Serve (Pool.start cursors goroutines) pool →
      pool.state = cursors ∧
      ∀ entry ∈ pool.trace, ∀ queries arg, entry.2.request = .execute queries arg →
        queries.db = .tx tx

theorem confinedTo_of_asks {α : Type} {tx : τ}
    {goroutines : List (Method δ τ S V ε α)}
    (h : ∀ p ∈ goroutines, p.Asks (Request.InTransaction tx)) :
    ConfinedTo tx goroutines := by
  intro cursors pool hreach
  constructor
  · apply Pool.state_eq_of_reaches hreach h
    intro before after event hevent hserve
    cases hserve with
    | add counter => exact hevent.elim
    | startPhysicalQuerySpan metadata mode => rfl
    | execute queries arg result => rfl
  · intro entry hentry queries arg hexecute
    have hasked := ((Pool.start_tracks cursors goroutines).reaches hreach).asks h
      entry hentry
    rw [hexecute] at hasked
    exact hasked

section Calls

variable [Inhabited κ] {Item Lookup K Row α : Type} [GoAny K]

/--
With a transaction, a call over one shard or over one group executes all its
statements there, and a call over all shards executes none.
-/
theorem calls_are_confined_to_transaction [Inhabited V]
    (s : MeshStore (QueryReplicaSet δ τ) κ A)
    (storeOptions : List (Option (QueryOption τ))) (tx : τ)
    (htx : LastTx storeOptions tx) :
    (∀ (spec : QuerySpec ε) (operand : A) (arg : S),
      ConfinedTo tx [queryShard (V := V) s spec operand storeOptions arg]) ∧
    (∀ (q : ManyQuery Item Lookup K A Row) (errors : MirrorErrors ε)
      (arg : List (Option Item)),
      ConfinedTo tx (queryMany s q errors arg storeOptions).goroutines) ∧
    (∀ (q : CopyQuery Item A α) (kind : QueryKind) (errors : MirrorErrors ε)
      (arg : List Item),
      ConfinedTo tx (queryCopy s q kind errors arg storeOptions).goroutines) ∧
    (∀ (q : AllShardsQuery) (errors : MirrorErrors ε) (arg : S),
      (queryAllShards Row s.mesh q errors arg storeOptions).goroutines = [] ∧
      ∀ completions,
        (queryAllShards Row s.mesh q errors arg storeOptions).join completions =
          (default, some errCrossShardTransaction)) := by
  have htx := htx.tx_eq
  refine ⟨?_, ?_, ?_, ?_⟩
  · intro spec operand arg
    apply confinedTo_of_asks
    intro p hp
    rw [List.mem_singleton.mp hp]
    unfold queryShard
    cases s.resolve (ε := ε) operand with
    | error err => cases spec.returnsError <;> trivial
    | ok shard =>
        exact (Target.query_inTransaction htx _ _ arg).bind fun _ => trivial
  · intro q errors arg
    apply confinedTo_of_asks
    intro p hp
    simp only [queryMany] at hp
    cases hplan : manyPlan (ε := ε) s q arg (applyQueryOptions storeOptions).flags with
    | error err => simp [hplan] at hp
    | ok plan =>
        simp only [hplan] at hp
        obtain ⟨group, _, rfl⟩ := List.mem_map.mp hp
        exact Target.query_inTransaction htx _ _ _
  · intro q kind errors arg
    apply confinedTo_of_asks
    intro p hp
    simp only [queryCopy] at hp
    cases hgroups : copyGroups (ε := ε) s q arg
        (applyQueryOptions storeOptions).flags.tx with
    | error err => simp [hgroups] at hp
    | ok groups =>
        simp only [hgroups] at hp
        obtain ⟨group, _, rfl⟩ := List.mem_map.mp hp
        exact Target.write_inTransaction htx _ _ _
  · intro q errors arg
    simp [queryAllShards, htx]

theorem calls_are_confined_to_transaction_sites :
    LastTx [some (.withTx none), some (.withTx (some 7)), none, some .readFromPrimary] 7 ∧
      ConfinedTo 7 [queryShard (V := Unit) (ε := Empty) siteQueries
        ⟨⟨false, fun _ => false⟩, .write, true⟩ 1
        [some (.withTx none), some (.withTx (some 7)), none, some .readFromPrimary] ()] := by
  have hlast : LastTx
      [some (.withTx none), some (.withTx (some 7)), none, some .readFromPrimary] 7 :=
    ⟨[some (.withTx none)], [none, some .readFromPrimary], rfl, by simp⟩
  exact ⟨hlast, (@calls_are_confined_to_transaction Nat Nat Unit Unit Empty Nat Nat _
    Unit Unit SiteKey Unit Unit _ _ siteQueries _ 7 hlast).1 _ _ _⟩

end Calls

/-! ## The replica sets that the input selects -/

section Selected

variable {ρ Item : Type} [Named ρ] [Inhabited κ]

/-- The replica sets that some item resolves to, in the order of `ReplicaSets()`. -/
def selected (s : MeshStore ρ κ A) (route : Item → A) (items : List Item) : List ρ :=
  s.mesh.replicaSets.filter fun r =>
    items.any fun item => s.targetName? (route item) == some (name r)

/-- Two items resolve to different replica sets. -/
def CrossesShards (s : MeshStore ρ κ A) (route : Item → A) (items : List Item) : Prop :=
  ∃ item ∈ items, ∃ item' ∈ items,
    s.targetName? (route item) ≠ s.targetName? (route item')

variable {s : MeshStore ρ κ A} {route : Item → A} {items : List Item}

theorem mem_selected {r : ρ} : r ∈ selected s route items ↔
    ∃ item ∈ items, s.mesh.target? (s.shardKey (route item)) = some r := by
  unfold selected
  rw [List.mem_filter]
  constructor
  · rintro ⟨hr, hany⟩
    obtain ⟨item, hitem, htarget⟩ := List.any_eq_true.mp hany
    obtain ⟨r', hr', hname⟩ := Option.map_eq_some_iff.mp (beq_iff_eq.mp htarget)
    have heq := s.mesh.name_inj r' (Mesh.target?_mem hr') r hr hname
    exact ⟨item, hitem, heq ▸ hr'⟩
  · rintro ⟨item, hitem, htarget⟩
    refine ⟨Mesh.target?_mem htarget, List.any_eq_true.mpr ⟨item, hitem, ?_⟩⟩
    simp [MeshStore.targetName?, htarget]

theorem selected_length_le_one
    (hone : ¬CrossesShards s route items) : (selected s route items).length ≤ 1 := by
  by_contra hlong
  have hnodup : (selected s route items).Nodup := s.mesh.nodup.filter _
  obtain ⟨r, r', rest, heq⟩ : ∃ r r' rest, selected s route items = r :: r' :: rest := by
    match hsel : selected s route items with
    | [] => simp [hsel] at hlong
    | [r] => simp [hsel] at hlong
    | r :: r' :: rest => exact ⟨r, r', rest, rfl⟩
  obtain ⟨item, hitem, hr⟩ := mem_selected.mp (heq ▸ List.mem_cons_self)
  obtain ⟨item', hitem', hr'⟩ :=
    mem_selected.mp (heq ▸ List.mem_cons_of_mem r List.mem_cons_self)
  apply hone
  refine ⟨item, hitem, item', hitem', ?_⟩
  intro hsame
  simp only [MeshStore.targetName?, hr, hr', Option.map_some, Option.some.injEq] at hsame
  have hsets := s.mesh.name_inj r (Mesh.target?_mem hr) r' (Mesh.target?_mem hr') hsame
  rw [heq, hsets] at hnodup
  simp at hnodup

theorem one_lt_selected_length (hcross : CrossesShards s route items)
    (hresolve : ∀ item ∈ items, s.targetName? (route item) ≠ none) :
    1 < (selected s route items).length := by
  obtain ⟨item, hitem, item', hitem', hne⟩ := hcross
  obtain ⟨_, hname⟩ := Option.ne_none_iff_exists'.mp (hresolve item hitem)
  obtain ⟨_, hname'⟩ := Option.ne_none_iff_exists'.mp (hresolve item' hitem')
  obtain ⟨r, hr, rfl⟩ := Option.map_eq_some_iff.mp hname
  obtain ⟨r', hr', rfl⟩ := Option.map_eq_some_iff.mp hname'
  have hsub : [r, r'].Subperm (selected s route items) := by
    apply List.subperm_of_subset
    · simp only [List.nodup_cons, List.mem_singleton, List.not_mem_nil,
        not_false_eq_true, List.nodup_nil, and_true]
      rintro rfl
      exact hne (hname.trans hname'.symm)
    · intro set hset
      rcases List.mem_cons.mp hset with rfl | hset
      · exact mem_selected.mpr ⟨item, hitem, hr⟩
      · rw [List.mem_singleton.mp hset]
        exact mem_selected.mpr ⟨item', hitem', hr'⟩
  exact hsub.length_le

theorem isEmpty_filter (p : Item → Bool) (items : List Item) :
    (items.filter p).isEmpty = !items.any p := by
  induction items with
  | nil => rfl
  | cons item items ih => cases h : p item <;> simp [h, ih]

theorem queried_eq_selected {Lookup K Row : Type} (q : ManyQuery Item Lookup K A Row)
    (items : List Item) : queried s q items = selected s q.route items := by
  unfold queried selected lookupsFor
  simp only [List.isEmpty_map, isEmpty_filter, Bool.not_not]

theorem handedOver_eq_selected {α : Type} (q : CopyQuery Item A α) (items : List Item) :
    (handedOver s q items).map Prod.fst = selected s q.route items := by
  unfold handedOver selected
  rw [List.map_filterMap, filterMap_eq_map_filter (g := id), List.map_id]
  intro r hr
  simp only [rowsFor, List.isEmpty_map, isEmpty_filter]
  cases items.any fun item => s.targetName? (q.route item) == some (name r) <;> rfl

end Selected

/-! ## Rejection -/

section Rejection

variable [Inhabited κ] {Item Lookup K Row α β : Type} [GoAny K]

/-- The call returns without having executed or selected anything. -/
def Call.Rejects (call : Call δ τ S V ε β) (result : β) : Prop :=
  ∀ (cursors : Cursors) (pool : Pool Cursors _ _ (V × Option (GoError ε))),
    Pool.Reaches Serve (Pool.start cursors call.goroutines) pool →
      pool.Finished ∧ pool.trace = [] ∧ pool.state = cursors ∧
        call.join pool.completions = result

theorem Call.rejects_of_nil {call : Call δ τ S V ε β} {result : β}
    (hnil : call.goroutines = []) (hjoin : ∀ completions, call.join completions = result) :
    call.Rejects result := by
  intro cursors pool hreach
  have hstart : pool = Pool.start cursors [] := by
    rw [hnil] at hreach
    induction hreach with
    | refl => rfl
    | tail _ hstep ih =>
        rw [ih] at hstep
        cases hstep with
        | ask hrunning _ => simp [Pool.start] at hrunning
        | finish hrunning => simp [Pool.start] at hrunning
  rw [hstart]
  exact ⟨by simp [Pool.Finished, Pool.start], rfl, rfl, hjoin _⟩

variable {ρ : Type} [Named ρ]

/-- The loop over the input never reports that shards are crossed. -/
theorem groupLookups_error {s : MeshStore ρ κ A} {q : ManyQuery Item Lookup K A Row}
    {groups : GoMap String (ManyShardGroup ρ Lookup K)}
    {orderedItems : List (ManyOrderItem K)} {rest : List (Option Item × Nat)}
    {err : GoError ε} (h : groupLookups s q groups orderedItems rest = .error err) :
    err ≠ errCrossShardTransaction := by
  fun_induction groupLookups s q groups orderedItems rest with
  | case1 => cases h
  | case2 =>
      cases h
      simp [errCrossShardTransaction]
  | case3 =>
      cases h
      simp [errCrossShardTransaction]
  | case4 =>
      cases h
      simp [errCrossShardTransaction]
  | case5 => rename_i ih; exact ih h
  | case6 => rename_i ih; exact ih h

/-! ### Grouped lookups -/

section Many

variable {s : MeshStore ρ κ A} {q : ManyQuery Item Lookup K A Row}
  {arg : List (Option Item)}

theorem manyPlan_of_unacceptable (options : QueryOptions)
    (h : ∃ item ∈ arg, Unacceptable s q item) :
    ∃ err, manyPlan (ε := ε) s q arg options = .error err := by
  cases hloop : groupLookups (ε := ε) s q [] [] arg.zipIdx with
  | error err => exact ⟨err, by simp [manyPlan, hloop]⟩
  | ok state =>
      obtain ⟨_, -, -, haccepted⟩ := groupLookups_ok hloop
      obtain ⟨item, hitem, hbad⟩ := h
      exact absurd hbad (haccepted item hitem)

theorem exists_items (h : ∀ item ∈ arg, ¬Unacceptable s q item) :
    arg = (arg.filterMap id).map some := by
  induction arg with
  | nil => rfl
  | cons item arg ih =>
      have hrest := ih fun other hother => h other (List.mem_cons_of_mem _ hother)
      cases item with
      | none => exact absurd trivial (h none List.mem_cons_self)
      | some item => simpa using hrest

theorem manyPlan_rejects (options : QueryOptions)
    (h : (∃ item ∈ arg, Unacceptable s q item) ∨
      options.tx = true ∧ CrossesShards s q.route (arg.filterMap id)) :
    ∃ err, manyPlan (ε := ε) s q arg options = .error err := by
  by_cases hbad : ∃ item ∈ arg, Unacceptable s q item
  · exact manyPlan_of_unacceptable options hbad
  · obtain ⟨htx, hcross⟩ := h.resolve_left hbad
    simp only [not_exists, not_and] at hbad
    have haccepted : ∀ item ∈ arg.filterMap id, ¬Unacceptable s q (some item) := by
      intro item hitem
      apply hbad
      simpa using hitem
    have hmany : 1 < (queried s q (arg.filterMap id)).length := by
      rw [queried_eq_selected]
      apply one_lt_selected_length hcross
      intro item hitem hnone
      exact haccepted item hitem (.inr hnone)
    have hplan := manyPlan_crosses (ε := ε) haccepted htx hmany
    rw [← exists_items hbad] at hplan
    exact ⟨_, hplan⟩

theorem manyPlan_ne_crosses (options : QueryOptions)
    (h : ¬CrossesShards s q.route (arg.filterMap id)) :
    manyPlan (ε := ε) s q arg options ≠ .error errCrossShardTransaction := by
  intro hplan
  unfold manyPlan at hplan
  split at hplan
  · rename_i err hloop
    cases hplan
    exact groupLookups_error hloop rfl
  · rename_i groupsByName orderedItems hloop
    obtain ⟨items, hitems, hpartitioned, -⟩ := groupLookups_ok hloop
    rw [hitems, List.filterMap_map, Function.id_comp, List.filterMap_some] at h
    have hlength := hpartitioned.populated_length
    rw [queried_eq_selected] at hlength
    have hone := selected_length_le_one h
    simp only at hplan
    rw [if_neg (by simp; omega)] at hplan
    cases hplan

end Many

/-! ### Copies -/

section Copy

variable {s : MeshStore ρ κ A} {q : CopyQuery Item A α} {arg : List Item}

theorem Grouped.populated_length {groups : GroupsByName ρ α}
    (h : Grouped s q arg groups) :
    (populated s.mesh groups).length = (selected s q.route arg).length := by
  rw [← handedOver_eq_selected, ← populated_eq h, List.length_map, List.length_map]

theorem copyGroups_rejects (tx : Bool)
    (h : (∃ item ∈ arg, s.targetName? (q.route item) = none) ∨
      tx = true ∧ CrossesShards s q.route arg) :
    ∃ err, copyGroups (ε := ε) s q arg tx = .error err := by
  unfold copyGroups
  cases hrows : groupRows (ε := ε) s q q.methodName [] arg.zipIdx with
  | error err => exact ⟨err, rfl⟩
  | ok groups =>
      obtain ⟨hgrouped, hresolve⟩ := groupRows_ok hrows
      have hnot : ¬∃ item ∈ arg, s.targetName? (q.route item) = none := by
        rintro ⟨item, hitem, hnone⟩
        exact hresolve item hitem hnone
      obtain ⟨htx, hcross⟩ := h.resolve_left hnot
      have hmany := one_lt_selected_length hcross hresolve
      rw [← hgrouped.populated_length] at hmany
      exact ⟨errCrossShardTransaction, by simp [htx, hmany]⟩

theorem copyGroups_ne_crosses (tx : Bool) (h : ¬CrossesShards s q.route arg) :
    copyGroups (ε := ε) s q arg tx ≠ .error errCrossShardTransaction := by
  intro hcopy
  unfold copyGroups at hcopy
  rcases groupRows_spec (ε := ε) q.methodName [] arg.zipIdx (Grouped.nil s q) with
    ⟨groups, hok, _⟩ | ⟨entry, _, routeErr, _, herr⟩
  · have hlength := (groupRows_ok hok).1.populated_length
    have hone := selected_length_le_one h
    simp only [hok] at hcopy
    rw [if_neg (by simp; omega)] at hcopy
    cases hcopy
  · rw [herr] at hcopy
    cases hcopy

end Copy

/-! ### The calls -/

theorem join_ne_new {errors : List (GoError ε)} :
    GoError.join errors ≠ some errCrossShardTransaction := by
  cases errors <;> simp [GoError.join, errCrossShardTransaction]

theorem mergeManyResults_ne_crosses {q : ManyQuery Item Lookup K A Row}
    {plan : ManyPlan ρ Lookup K} {results : List (ManyResult Row ε)} :
    (mergeManyResults q plan results).2 ≠ some errCrossShardTransaction := by
  simp only [mergeManyResults]
  split
  · rename_i err herr
    exact herr ▸ join_ne_new
  · split
    · rename_i err herr
      exact herr ▸ join_ne_new
    · simp

theorem joinCopyResults_ne_crosses {q : CopyQuery Item A α}
    {groups : List (CopyShardGroup ρ α)} {results : List (CopyResult ε)} :
    (joinCopyResults q groups results).2 ≠ some errCrossShardTransaction := by
  simp only [joinCopyResults]
  split
  · rename_i err herr
    exact herr ▸ join_ne_new
  · simp

/--
A call whose input fails to route, or that would take a transaction to several
replica sets, returns an error and the zero value.  Nothing has been executed
or submitted then, and no read counter has advanced.  A transaction with one
replica set is not refused for crossing shards.
-/
theorem preflight_is_atomic (s : MeshStore (QueryReplicaSet δ τ) κ A)
    (errors : MirrorErrors ε) (storeOptions : List (Option (QueryOption τ))) :
    (∀ (q : ManyQuery Item Lookup K A Row) (arg : List (Option Item)),
      ((∃ item ∈ arg, Unacceptable s q item) ∨
        (applyQueryOptions storeOptions).tx.isSome = true ∧
          CrossesShards s q.route (arg.filterMap id) →
        ∃ err, (queryMany s q errors arg storeOptions).Rejects ([], some err)) ∧
      (¬CrossesShards s q.route (arg.filterMap id) → ∀ completions,
        ((queryMany s q errors arg storeOptions).join completions).2 ≠
          some errCrossShardTransaction)) ∧
    (∀ (q : CopyQuery Item A α) (kind : QueryKind) (arg : List Item),
      ((∃ item ∈ arg, s.targetName? (q.route item) = none) ∨
        (applyQueryOptions storeOptions).tx.isSome = true ∧
          CrossesShards s q.route arg →
        ∃ err, (queryCopy s q kind errors arg storeOptions).Rejects (0, some err)) ∧
      (¬CrossesShards s q.route arg → ∀ completions,
        ((queryCopy s q kind errors arg storeOptions).join completions).2 ≠
          some errCrossShardTransaction)) ∧
    (∀ (q : CopyQuery Item A α) (arg : List Item)
      (st : CopyBatchState Item (QueryReplicaSet δ τ) α ε) (ctxErr : Option (GoError ε)),
      (∃ item ∈ arg, s.targetName? (q.route item) = none) →
        ∃ err, st.copyAsync s q arg ctxErr = some (st, .resolved 0 (some err))) := by
  refine ⟨?_, ?_, ?_⟩
  · intro q arg
    constructor
    · intro h
      obtain ⟨err, herr⟩ := manyPlan_rejects (ε := ε)
        (applyQueryOptions storeOptions).flags h
      refine ⟨err, Call.rejects_of_nil (by simp [queryMany, herr]) ?_⟩
      intro completions
      simp [queryMany, groupedMany, herr]
    · intro hone completions
      have hplan := manyPlan_ne_crosses (ε := ε)
        (applyQueryOptions storeOptions).flags hone
      simp only [queryMany, groupedMany]
      split
      · rename_i err herr
        rw [herr] at hplan
        simpa using hplan
      · split
        · simp
        · exact mergeManyResults_ne_crosses
  · intro q kind arg
    constructor
    · intro h
      obtain ⟨err, herr⟩ := copyGroups_rejects (ε := ε)
        (applyQueryOptions storeOptions).flags.tx h
      refine ⟨err, Call.rejects_of_nil (by simp [queryCopy, herr]) ?_⟩
      intro completions
      simp [queryCopy, copyFrom, herr]
    · intro hone completions
      have hgroups := copyGroups_ne_crosses (ε := ε)
        (applyQueryOptions storeOptions).flags.tx hone
      simp only [queryCopy, copyFrom]
      split
      · rename_i err herr
        rw [herr] at hgroups
        simpa using hgroups
      · split
        · simp
        · exact joinCopyResults_ne_crosses
  · intro q arg st ctxErr hbad
    obtain ⟨err, herr⟩ := groupRows_of_unresolved (ε := ε) (asyncMethodName q) hbad
    exact ⟨err, by simp [CopyBatchState.copyAsync, asyncCopyGroups, herr]⟩

end Rejection

end PgMesh.Store
