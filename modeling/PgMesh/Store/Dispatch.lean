import PgMesh.Store.Preflight
import Mathlib.Algebra.Ring.Int.Defs

/-!
# Joining the results of several replica sets

A call that has reached its goroutines queries each selected replica set once.
What it returns depends on what each of them returned, not on the order in
which they did.
-/

namespace PgMesh.Store

open PgMesh.Foundation
open PgMesh.Topology

variable {δ τ S V ε κ A : Type}

/-! ## Attempts -/

/-- The replica set whose span a request starts. -/
def Request.attempt? : Request δ τ S → Option String
  | .startPhysicalQuerySpan metadata _ => some metadata.replicaSetName
  | _ => none

def attempted (events : List (MethodEvent δ τ S V ε)) : List String :=
  events.filterMap fun event => event.request.attempt?

theorem attempted_cons (event : MethodEvent δ τ S V ε)
    (events : List (MethodEvent δ τ S V ε)) :
    attempted (event :: events) = event.request.attempt?.toList ++ attempted events := by
  unfold attempted
  cases h : event.request.attempt? <;> simp [h]

/-- The wrappers start no span. -/
def Request.Silent (request : Request δ τ S) : Prop := request.attempt? = none

theorem attempted_eq_nil {α : Type} {p p' : Method δ τ S V ε α}
    {events : List (MethodEvent δ τ S V ε)} (hasks : p.Asks Request.Silent)
    (h : p.Runs events p') : attempted events = [] :=
  List.filterMap_eq_nil_iff.mpr (hasks.of_runs h)

theorem Target.attempted_span {α : Type} {metadata : RouteMetadata} {mode : RouteMode}
    {call : Method δ τ S V ε α} {events : List (MethodEvent δ τ S V ε)} {result : α}
    (hasks : call.Asks Request.Silent)
    (h : (span true metadata mode call).Runs events (.done result)) :
    attempted events = [metadata.replicaSetName] := by
  obtain ⟨_, rest, rfl, hrest⟩ := Program.runs_ask_done.mp h
  rw [attempted_cons, attempted_eq_nil hasks hrest]
  rfl

theorem Target.Addresses.names {s : QueryReplicaSet δ τ} {t : Target δ τ}
    (h : t.Addresses s) : t.writeRoute.metadata.replicaSetName = s.name ∧
      ∀ added, (t.readRoute added).metadata.replicaSetName = s.name := by
  cases h <;> exact ⟨rfl, fun _ => rfl⟩

section Attempts

variable [Inhabited V] {s : QueryReplicaSet δ τ} {t : Target δ τ} {spec : QuerySpec ε}
  {options : CallOptions τ} {arg : S} {events : List (MethodEvent δ τ S V ε)}
  {result : V × Option (GoError ε)}

theorem QueryStore.call_silent (q : QueryStore δ τ) :
    (q.call (V := V) spec arg).Asks Request.Silent :=
  QueryStore.call_asks rfl rfl fun _ _ => rfl

theorem Target.Addresses.attempted_write (ht : t.Addresses s)
    (h : (t.write spec options true arg).Runs events (.done result)) :
    attempted events = [s.name] := by
  rw [← ht.names.1]
  unfold Target.write at h
  cases htx : options.tx with
  | some tx =>
      simp only [htx] at h
      exact Target.attempted_span (QueryStore.call_silent _) h
  | none =>
      simp only [htx] at h
      exact Target.attempted_span (QueryStore.call_silent _) h

theorem Target.Addresses.attempted_query (ht : t.Addresses s)
    (h : (t.query spec options true arg).Runs events (.done result)) :
    attempted events = [s.name] := by
  unfold Target.query at h
  cases hkind : spec.kind with
  | write =>
      simp only [hkind] at h
      exact ht.attempted_write h
  | read =>
      simp only [hkind, Target.read] at h
      split at h
      · exact ht.attempted_write h
      · exact ht.attempted_write h
      · obtain ⟨added, rest, rfl, hrest⟩ := Program.runs_ask_done.mp h
        have hspan := Target.attempted_span (ReadQueries.call_asks rfl) hrest
        rw [attempted_cons, hspan]
        exact congrArg (fun n => [n]) (ht.names.2 added)

/-- A goroutine that queries a replica set. -/
def Attempts (s : QueryReplicaSet δ τ)
    (p : Method δ τ S V ε (V × Option (GoError ε))) : Prop :=
  ∃ t spec options arg, Target.Addresses s t ∧
    (p = t.query spec options true arg ∨ p = t.write spec options true arg)

theorem Attempts.attempted {p : Method δ τ S V ε (V × Option (GoError ε))}
    (hp : Attempts s p) (h : p.Runs events (.done result)) :
    attempted events = [s.name] := by
  obtain ⟨t, spec, options, arg, ht, rfl | rfl⟩ := hp
  · exact ht.attempted_query h
  · exact ht.attempted_write h

end Attempts

/-! ## Calls that fan out -/

/-- The errors of the targets that failed, in the order of the targets. -/
def failures (methodName : String) (sets : List (QueryReplicaSet δ τ))
    (outcomes : List (V × Option (GoError ε))) : List (GoError ε) :=
  (sets.zip outcomes).filterMap fun (set, outcome) =>
    outcome.2.map (shardError methodName set.name)

theorem failures_eq_nil {methodName : String} {sets : List (QueryReplicaSet δ τ)}
    {outcomes : List (V × Option (GoError ε))} (h : ∀ outcome ∈ outcomes, outcome.2 = none) :
    failures methodName sets outcomes = [] := by
  apply List.filterMap_eq_nil_iff.mpr
  intro pair hpair
  simp [h pair.2 (List.of_mem_zip hpair).2]

theorem failures_ne_nil (methodName : String) {sets : List (QueryReplicaSet δ τ)}
    {outcomes : List (V × Option (GoError ε))} (hlength : outcomes.length = sets.length)
    (h : ∃ outcome ∈ outcomes, outcome.2 ≠ none) :
    failures methodName sets outcomes ≠ [] := by
  obtain ⟨outcome, hmem, herr⟩ := h
  obtain ⟨i, hi, rfl⟩ := List.mem_iff_getElem.mp hmem
  obtain ⟨err, herr⟩ := Option.ne_none_iff_exists'.mp herr
  have hpair : (sets[i], outcomes[i]) ∈ sets.zip outcomes := by
    rw [List.mem_iff_getElem]
    exact ⟨i, by simp; omega, by simp⟩
  have herror : shardError methodName sets[i].name err ∈
      failures methodName sets outcomes :=
    List.mem_filterMap.mpr ⟨_, hpair, by simp [herr]⟩
  exact List.ne_nil_of_mem herror

/-- What a call returns for the outcomes of its targets, if all succeed and if not. -/
structure Joins {β : Type} (methodName : String) (sets : List (QueryReplicaSet δ τ))
    (zero : β) (success : List V → β × Option (GoError ε) → Prop)
    (outcomes : List (V × Option (GoError ε))) (result : β × Option (GoError ε)) :
    Prop where
  failed : (∃ outcome ∈ outcomes, outcome.2 ≠ none) →
    result = (zero, some (.joined (failures methodName sets outcomes)))
  succeeded : (∀ outcome ∈ outcomes, outcome.2 = none) →
    success (outcomes.map Prod.fst) result

/--
However its goroutines interleave, the call can return; when it does, each
replica set has been attempted once, and the result joins their outcomes.
-/
structure FansOut [Inhabited V] {β : Type}
    (call : Call δ τ S V ε (β × Option (GoError ε)))
    (methodName : String) (sets : List (QueryReplicaSet δ τ)) (zero : β)
    (success : List V → β × Option (GoError ε) → Prop) : Prop where
  targets : List.Forall₂ Attempts sets call.goroutines
  returns : ∀ (cursors : Cursors) (pool : Pool Cursors _ _ (V × Option (GoError ε))),
    Pool.Reaches Serve (Pool.start cursors call.goroutines) pool →
      ∃ next, Pool.Reaches Serve pool next ∧ next.Finished
  joins : ∀ (cursors : Cursors) (pool : Pool Cursors _ _ (V × Option (GoError ε))),
    Pool.Reaches Serve (Pool.start cursors call.goroutines) pool → pool.Finished →
      (attempted (pool.trace.map Prod.snd)).Perm (sets.map name) ∧
      ∃ outcomes : List (V × Option (GoError ε)), outcomes.length = sets.length ∧
        (∀ (i : Nat) p outcome, call.goroutines[i]? = some p →
          outcomes[i]? = some outcome → p.Runs (pool.eventsOf i) (.done outcome)) ∧
        Joins methodName sets zero success outcomes (call.join pool.completions)

theorem serve_total [Inhabited V] (cursors : Cursors) (request : Request δ τ S) :
    ∃ (answer : Answer V ε request) (cursors' : Cursors),
      Serve cursors ⟨request, answer⟩ cursors' := by
  cases request with
  | add counter => exact ⟨_, _, .add cursors counter⟩
  | startPhysicalQuerySpan metadata mode => exact ⟨_, _, .startPhysicalQuerySpan ..⟩
  | execute queries arg => exact ⟨(default, none), _, .execute ..⟩

section FanOut

variable [Inhabited V] {β : Type} {call : Call δ τ S V ε (β × Option (GoError ε))}
  {sets : List (QueryReplicaSet δ τ)}

omit [Inhabited V] in
theorem attempted_flatMap_range (names : List String)
    {events : Nat → List (MethodEvent δ τ S V ε)}
    (h : ∀ i n, names[i]? = some n → attempted (events i) = [n]) :
    attempted ((List.range names.length).flatMap events) = names := by
  induction names generalizing events with
  | nil => rfl
  | cons n names ih =>
      have hrest := @ih (fun i => events (i + 1)) fun i n hn => h (i + 1) n hn
      have hfirst := h 0 n rfl
      unfold attempted at hfirst hrest ⊢
      rw [List.length_cons, List.range_succ_eq_map, List.flatMap_cons,
        List.filterMap_append, hfirst, List.flatMap_map, hrest]
      rfl

/-- Every target is attempted once, whatever the interleaving. -/
theorem attempted_perm (htargets : List.Forall₂ Attempts sets call.goroutines)
    {cursors : Cursors} {pool : Pool Cursors _ _ (V × Option (GoError ε))}
    (hreach : Pool.Reaches Serve (Pool.start cursors call.goroutines) pool)
    {outcomes : List (V × Option (GoError ε))}
    (hlength : outcomes.length = call.goroutines.length)
    (hruns : ∀ (i : Nat) p outcome, call.goroutines[i]? = some p →
      outcomes[i]? = some outcome → p.Runs (pool.eventsOf i) (.done outcome)) :
    (attempted (pool.trace.map Prod.snd)).Perm (sets.map name) := by
  have hperm := ((Pool.start_tracks cursors call.goroutines).reaches hreach).perm_trace
  have hnames : attempted ((List.range call.goroutines.length).flatMap pool.eventsOf) =
      sets.map name := by
    rw [← htargets.length_eq, ← List.length_map (f := name)]
    apply attempted_flatMap_range
    intro i n hn
    rw [List.getElem?_map] at hn
    obtain ⟨set, hset, rfl⟩ := Option.map_eq_some_iff.mp hn
    obtain ⟨hi, hset⟩ := List.getElem?_eq_some_iff.mp hset
    have hi' : i < call.goroutines.length := htargets.length_eq ▸ hi
    have hattempts : Attempts sets[i] call.goroutines[i] := htargets.get hi hi'
    rw [hset] at hattempts
    exact hattempts.attempted (hruns i _ _ (List.getElem?_eq_getElem hi')
      (List.getElem?_eq_getElem (by omega)))
  rw [← hnames]
  exact (hperm.filterMap _).symm

theorem fansOut {methodName : String} {zero : β}
    {success : List V → β × Option (GoError ε) → Prop}
    (htargets : List.Forall₂ Attempts sets call.goroutines)
    (hjoin : ∀ outcomes completions, outcomes.length = sets.length →
      Completes outcomes completions →
      Joins methodName sets zero success outcomes (call.join completions)) :
    FansOut call methodName sets zero success where
  targets := htargets
  returns cursors pool _ := Pool.exists_finished serve_total pool
  joins := by
    intro cursors pool hreach hfinished
    obtain ⟨outcomes, hlength, hcompletes, hruns⟩ :=
      ((Pool.start_tracks cursors call.goroutines).reaches hreach).completes hfinished
    have hsets := hlength.trans htargets.length_eq.symm
    exact ⟨attempted_perm htargets hreach hlength hruns, outcomes, hsets, hruns,
      hjoin outcomes _ hsets hcompletes⟩

end FanOut

/-! ## Results -/

/-- The sum of counts, as `int64` wraps it. -/
def int64Sum (counts : List Int64) : Int64 := Int64.ofInt (counts.map Int64.toInt).sum

theorem foldl_add_eq (counts : List Int64) (start : Int64) :
    counts.foldl (· + ·) start = start + int64Sum counts := by
  induction counts generalizing start with
  | nil => simp [int64Sum]
  | cons count counts ih =>
      rw [List.foldl_cons, ih, int64Sum, int64Sum, List.map_cons, List.sum_cons,
        Int64.ofInt_add, Int64.ofInt_toInt, Int64.add_assoc]

/-- What a query over all shards returns when every shard succeeds. -/
def AllShardsCommand.merged {Row : Type} (command : AllShardsCommand)
    (values : List (command.Value Row)) : command.Value Row :=
  match command, values with
  | .many, values => List.flatten (values : List (List Row))
  | .exec, _ => ()
  | .execRows, values => int64Sum values

theorem AllShardsCommand.aggregate_eq {Row : Type} (command : AllShardsCommand)
    (values : List (command.Value Row)) :
    command.aggregate values = command.merged values := by
  cases command with
  | many =>
      have hfold : ∀ (values : List (List Row)) (rows : List Row),
          values.foldl (fun rows value => rows ++ value) rows = rows ++ values.flatten := by
        intro values
        induction values with
        | nil => simp
        | cons value values ih => simp [ih]
      exact hfold values []
  | exec => rfl
  | execRows => exact (foldl_add_eq values 0).trans (Int64.zero_add _)

/-- The errors of the targets are joined, if there are any. -/
theorem joins_of_failures {β : Type} {methodName : String}
    {sets : List (QueryReplicaSet δ τ)} {zero : β}
    {success : List V → β × Option (GoError ε) → Prop}
    {outcomes : List (V × Option (GoError ε))} {result : β × Option (GoError ε)}
    (hlength : outcomes.length = sets.length)
    (hfailed : failures methodName sets outcomes ≠ [] →
      result = (zero, some (.joined (failures methodName sets outcomes))))
    (hsucceeded : failures methodName sets outcomes = [] →
      success (outcomes.map Prod.fst) result) :
    Joins methodName sets zero success outcomes result where
  failed h := hfailed (failures_ne_nil methodName hlength h)
  succeeded h := hsucceeded (failures_eq_nil h)

section Calls

variable [Inhabited κ] {Item Lookup K Row α : Type} [GoAny K]

omit [Inhabited κ] in
theorem queryAllShards_fansOut (mesh : Mesh (QueryReplicaSet δ τ) κ)
    (q : AllShardsQuery) (errors : MirrorErrors ε) (arg : S)
    {storeOptions : List (Option (QueryOption τ))}
    (htx : (applyQueryOptions storeOptions).tx = none) :
    FansOut (queryAllShards Row mesh q errors arg storeOptions) q.methodName
      mesh.replicaSets default fun values result =>
        result = (q.command.merged values, none) := by
  apply fansOut
  · simp only [queryAllShards, htx]
    rw [List.forall₂_map_right_iff, List.forall₂_same]
    intro set _
    exact ⟨_, _, _, _, .replicaSet, .inl rfl⟩
  · intro outcomes completions hlength hcompletes
    have hfill : fill (List.replicate mesh.replicaSets.length (default, none))
        completions = outcomes := fill_of_completes hcompletes (by simp [hlength])
    simp only [queryAllShards, htx, hfill]
    apply joins_of_failures hlength
    · intro hne
      simp only [joinShardResults]
      rw [show List.filterMap _ (mesh.replicaSets.zip outcomes) =
        failures q.methodName mesh.replicaSets outcomes from rfl,
        GoError.join_eq_some_of_ne_nil hne]
    · intro hnil
      simp only [joinShardResults]
      rw [show List.filterMap _ (mesh.replicaSets.zip outcomes) =
        failures q.methodName mesh.replicaSets outcomes from rfl, hnil]
      simp only [GoError.join_nil, AllShardsCommand.aggregate_eq]

theorem manyPlan_groups {ρ : Type} [Named ρ] {s : MeshStore ρ κ A}
    {q : ManyQuery Item Lookup K A Row} {arg : List (Option Item)}
    {options : QueryOptions} {plan : ManyPlan ρ Lookup K}
    (h : manyPlan (ε := ε) s q arg options = .ok plan) :
    plan.groups.map (·.shard.replicaSet) = selected s q.route (arg.filterMap id) := by
  unfold manyPlan at h
  split at h
  · cases h
  · rename_i groupsByName orderedItems hloop
    obtain ⟨items, hitems, hpartitioned, -⟩ := groupLookups_ok hloop
    simp only at h
    split at h
    · cases h
    · cases h
      have hgroups := congrArg (List.map Prod.fst) hpartitioned.populated_eq
      rw [List.map_map, List.map_map] at hgroups
      rw [hitems, List.filterMap_map, Function.id_comp, List.filterMap_some,
        ← queried_eq_selected]
      simpa [Function.comp_def] using hgroups

theorem groupErrors_eq {γ R : Type} (methodName : String) (groups : List γ)
    (shard : γ → ResolvedShard (QueryReplicaSet δ τ))
    (outcomes : List (V × Option (GoError ε))) (result : V × Option (GoError ε) → R)
    (err : R → Option (GoError ε)) (herr : ∀ outcome, err (result outcome) = outcome.2) :
    (groups.zip (outcomes.map result)).filterMap (fun x =>
        (err x.2).map (shardError methodName (shard x.1).replicaSetName)) =
      failures methodName (groups.map fun group => (shard group).replicaSet) outcomes := by
  unfold failures
  rw [List.zip_map_left, List.zip_map_right, List.filterMap_map, List.filterMap_map]
  apply List.filterMap_congr
  intro x _
  simp only [Function.comp_apply, Prod.map_snd, Prod.map_fst, id, herr]
  rfl

/-- The order in which the goroutines return does not matter. -/
theorem groupedMany_of_completes {s : MeshStore (QueryReplicaSet δ τ) κ A}
    {q : ManyQuery Item Lookup K A Row} {arg : List (Option Item)}
    {options : QueryOptions} {plan : ManyPlan (QueryReplicaSet δ τ) Lookup K}
    (hplan : manyPlan (ε := ε) s q arg options = .ok plan)
    {results : List (ManyResult Row ε)} (hlength : results.length = plan.groups.length)
    {completions : List (Nat × ManyResult Row ε)} (h : Completes results completions) :
    groupedMany s q arg options completions =
      if plan.groups.length = 0 then ([], none) else mergeManyResults q plan results := by
  have hfill : fill (List.replicate plan.groups.length ⟨[], none⟩) completions = results :=
    fill_of_completes h (by simp [hlength])
  simp only [groupedMany, hplan, hfill]

theorem mergeManyResults_of_failures {q : ManyQuery Item Lookup K A Row}
    {plan : ManyPlan (QueryReplicaSet δ τ) Lookup K}
    {outcomes : List (List Row × Option (GoError ε))}
    (h : failures q.methodName (plan.groups.map (·.shard.replicaSet)) outcomes ≠ []) :
    mergeManyResults q plan (outcomes.map fun outcome => ⟨outcome.1, outcome.2⟩) =
      ([], some (.joined
        (failures q.methodName (plan.groups.map (·.shard.replicaSet)) outcomes))) := by
  have herrors := groupErrors_eq q.methodName plan.groups ManyShardGroup.shard outcomes
    (fun outcome => (⟨outcome.1, outcome.2⟩ : ManyResult Row ε)) ManyResult.err
    fun _ => rfl
  simp only [mergeManyResults, herrors]
  rw [GoError.join_eq_some_of_ne_nil h]

theorem completes_in_order {γ : Type} (values : List V) (f : V → γ) :
    Completes (values.map f) (values.zipIdx.map fun (value, i) => (i, f value)) := by
  rw [Completes, List.zipIdx_map, List.map_map]
  exact .refl _

theorem queryMany_fansOut {s : MeshStore (QueryReplicaSet δ τ) κ A}
    {q : ManyQuery Item Lookup K A Row} (errors : MirrorErrors ε)
    {arg : List (Option Item)} {storeOptions : List (Option (QueryOption τ))}
    {plan : ManyPlan (QueryReplicaSet δ τ) Lookup K}
    (hplan : manyPlan (ε := ε) s q arg (applyQueryOptions storeOptions).flags = .ok plan) :
    FansOut (queryMany s q errors arg storeOptions) q.methodName
      (selected s q.route (arg.filterMap id)) [] fun rows result =>
        result = groupedMany s q arg (applyQueryOptions storeOptions).flags
          (rows.zipIdx.map fun (value, i) => (i, ⟨value, none⟩)) := by
  have hgroups := manyPlan_groups hplan
  apply fansOut
  · rw [← hgroups]
    simp only [queryMany, hplan]
    rw [List.forall₂_map_left_iff, List.forall₂_map_right_iff, List.forall₂_same]
    intro group _
    exact ⟨_, _, _, _, .group group.shard.virtualShardIndex, .inl rfl⟩
  · intro outcomes completions hlength hcompletes
    have hgroupsLength : outcomes.length = plan.groups.length := by
      rw [hlength, ← hgroups, List.length_map]
    have hresult := groupedMany_of_completes hplan
      ((List.length_map _).trans hgroupsLength)
      (completes_map (fun outcome => (⟨outcome.1, outcome.2⟩ : ManyResult Row ε)) hcompletes)
    constructor
    · intro hfailed
      have hne := failures_ne_nil q.methodName hlength hfailed
      have hpos : plan.groups.length ≠ 0 := by
        obtain ⟨outcome, hmem, _⟩ := hfailed
        have := List.length_pos_of_mem hmem
        omega
      rw [if_neg hpos] at hresult
      rw [← hgroups] at hne ⊢
      exact hresult.trans (mergeManyResults_of_failures hne)
    · intro hnone
      have hsame : (outcomes.map Prod.fst).map (fun value =>
          (⟨value, none⟩ : ManyResult Row ε)) =
          outcomes.map fun outcome => ⟨outcome.1, outcome.2⟩ := by
        rw [List.map_map]
        apply List.map_congr_left
        intro outcome hmem
        simp [hnone outcome hmem]
      have horder := completes_in_order (outcomes.map Prod.fst)
        fun value => (⟨value, none⟩ : ManyResult Row ε)
      rw [hsame] at horder
      exact hresult.trans (groupedMany_of_completes hplan
        ((List.length_map _).trans hgroupsLength) horder).symm

theorem copyGroups_replicaSets {ρ : Type} [Named ρ] {s : MeshStore ρ κ A}
    {q : CopyQuery Item A α} {arg : List Item} {tx : Bool}
    {groups : List (CopyShardGroup ρ α)}
    (h : copyGroups (ε := ε) s q arg tx = .ok groups) :
    groups.map (·.shard.replicaSet) = selected s q.route arg := by
  unfold copyGroups at h
  split at h
  · cases h
  · rename_i groupsByName hrows
    simp only at h
    split at h
    · cases h
    · cases h
      rw [← handedOver_eq_selected, ← populated_eq (groupRows_ok hrows).1, List.map_map]
      rfl

section Join

variable {q : CopyQuery Item A α}
  {groups : List (CopyShardGroup (QueryReplicaSet δ τ) α)}
  {outcomes : List (Int64 × Option (GoError ε))}

theorem joinCopyResults_of_failures
    (h : failures q.methodName (groups.map (·.shard.replicaSet)) outcomes ≠ []) :
    joinCopyResults q groups (outcomes.map fun outcome => ⟨outcome.1, outcome.2⟩) =
      (0, some (.joined
        (failures q.methodName (groups.map (·.shard.replicaSet)) outcomes))) := by
  have herrors := groupErrors_eq q.methodName groups CopyShardGroup.shard outcomes
    (fun outcome => (⟨outcome.1, outcome.2⟩ : CopyResult ε)) CopyResult.err fun _ => rfl
  simp only [joinCopyResults, herrors]
  rw [GoError.join_eq_some_of_ne_nil h]

theorem joinCopyResults_of_success
    (h : failures q.methodName (groups.map (·.shard.replicaSet)) outcomes = []) :
    joinCopyResults q groups (outcomes.map fun outcome => ⟨outcome.1, outcome.2⟩) =
      (int64Sum (outcomes.map Prod.fst), none) := by
  have herrors := groupErrors_eq q.methodName groups CopyShardGroup.shard outcomes
    (fun outcome => (⟨outcome.1, outcome.2⟩ : CopyResult ε)) CopyResult.err fun _ => rfl
  have hsum := foldl_add_eq (outcomes.map Prod.fst) 0
  rw [List.foldl_map, Int64.zero_add] at hsum
  simp only [joinCopyResults, herrors, h, GoError.join_nil, List.foldl_map, hsum]

end Join

theorem copyFrom_of_completes {s : MeshStore (QueryReplicaSet δ τ) κ A}
    {q : CopyQuery Item A α} {arg : List Item} {tx : Bool}
    {groups : List (CopyShardGroup (QueryReplicaSet δ τ) α)}
    (hok : copyGroups (ε := ε) s q arg tx = .ok groups)
    {results : List (CopyResult ε)} (hlength : results.length = groups.length)
    {completions : List (Nat × CopyResult ε)} (h : Completes results completions) :
    copyFrom s q arg tx completions = joinCopyResults q groups results := by
  have hfill : fill (List.replicate groups.length ⟨0, none⟩) completions = results :=
    fill_of_completes h (by simp [hlength])
  simp only [copyFrom, hok, hfill]
  by_cases hnil : groups.length = 0
  · have hempty : results = [] := List.length_eq_zero_iff.mp (hlength.trans hnil)
    rw [if_pos hnil, hempty]
    simp [joinCopyResults]
  · rw [if_neg hnil]

theorem queryCopy_fansOut {s : MeshStore (QueryReplicaSet δ τ) κ A}
    {q : CopyQuery Item A α} (kind : QueryKind) (errors : MirrorErrors ε)
    {arg : List Item} {storeOptions : List (Option (QueryOption τ))}
    {groups : List (CopyShardGroup (QueryReplicaSet δ τ) α)}
    (hok : copyGroups (ε := ε) s q arg (applyQueryOptions storeOptions).flags.tx =
      .ok groups) :
    FansOut (queryCopy s q kind errors arg storeOptions) q.methodName
      (selected s q.route arg) 0 fun counts result => result = (int64Sum counts, none) := by
  have hgroups := copyGroups_replicaSets hok
  apply fansOut
  · rw [← hgroups]
    simp only [queryCopy, hok]
    rw [List.forall₂_map_left_iff, List.forall₂_map_right_iff, List.forall₂_same]
    intro group _
    exact ⟨_, _, _, _, .group group.shard.virtualShardIndex, .inr rfl⟩
  · intro outcomes completions hlength hcompletes
    have hgroupsLength : outcomes.length = groups.length := by
      rw [hlength, ← hgroups, List.length_map]
    have hresult := copyFrom_of_completes hok ((List.length_map _).trans hgroupsLength)
      (completes_map (fun outcome => (⟨outcome.1, outcome.2⟩ : CopyResult ε)) hcompletes)
    apply joins_of_failures hlength
    · intro hne
      rw [← hgroups] at hne ⊢
      exact hresult.trans (joinCopyResults_of_failures hne)
    · intro hnil
      rw [← hgroups] at hnil
      exact hresult.trans (joinCopyResults_of_success hnil)

/--
A call over several replica sets attempts each of them once.  If some fail, it
returns the zero value and their errors in the order of `ReplicaSets()`; if
none fails, what it returns does not depend on the order of completion.
-/
theorem fan_out_join_is_complete (s : MeshStore (QueryReplicaSet δ τ) κ A)
    (errors : MirrorErrors ε) (storeOptions : List (Option (QueryOption τ))) :
    (∀ (q : AllShardsQuery) (arg : S), (applyQueryOptions storeOptions).tx = none →
      FansOut (queryAllShards Row s.mesh q errors arg storeOptions) q.methodName
        s.mesh.replicaSets default fun values result =>
          result = (q.command.merged values, none)) ∧
    (∀ (q : ManyQuery Item Lookup K A Row) (arg : List (Option Item)) plan,
      manyPlan (ε := ε) s q arg (applyQueryOptions storeOptions).flags = .ok plan →
      FansOut (queryMany s q errors arg storeOptions) q.methodName
        (selected s q.route (arg.filterMap id)) [] fun rows result =>
          result = groupedMany s q arg (applyQueryOptions storeOptions).flags
            (rows.zipIdx.map fun (value, i) => (i, ⟨value, none⟩))) ∧
    (∀ (q : CopyQuery Item A α) (kind : QueryKind) (arg : List Item) groups,
      copyGroups (ε := ε) s q arg (applyQueryOptions storeOptions).flags.tx =
        .ok groups →
      FansOut (queryCopy s q kind errors arg storeOptions) q.methodName
        (selected s q.route arg) 0 fun counts result =>
          result = (int64Sum counts, none)) :=
  ⟨fun q arg htx => queryAllShards_fansOut s.mesh q errors arg htx,
    fun _ _ _ hplan => queryMany_fansOut errors hplan,
    fun _ kind _ _ hok => queryCopy_fansOut kind errors hok⟩

end Calls

end PgMesh.Store
