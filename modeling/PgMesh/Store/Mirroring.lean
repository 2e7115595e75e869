import PgMesh.Store.Calls
import PgMesh.Topology.Opened

/-!
# Mirrored writes

In a mesh that `OpenMesh` has made from the nodes of `newStoreNode`, a write
runs on the primary of its replica set and then on the primaries of the
mirrors that the configuration lists, and nowhere else.
-/

namespace PgMesh.Store

open PgMesh.Foundation
open PgMesh.Topology

variable {δ τ S V ε κ A π : Type} [Inhabited V]

/-! ## A write through a target -/

/-- The span of a write outside a transaction. -/
def writeSpan (t : Target δ τ) : MethodEvent δ τ S V ε :=
  ⟨.startPhysicalQuerySpan t.writeRoute.metadata .primary, ()⟩

/-- What the generator fixes for a write that returns an error and reports its mirrors'. -/
structure ReportsMirrors (spec : QuerySpec ε) : Prop where
  kind : spec.kind = .write
  returnsError : spec.returnsError = true
  ignoreMirrorError : spec.ignoreMirrorError = false

/-- Both ways of a write take the write route. -/
theorem Target.query_eq_write {spec : QuerySpec ε} (hspec : ReportsMirrors spec)
    (options : CallOptions τ) (t : Target δ τ) (arg : S) :
    t.query (V := V) spec options true arg = t.write spec options true arg := by
  simp [Target.query, hspec.kind]

theorem Target.write_runs {spec : QuerySpec ε} (hspec : ReportsMirrors spec)
    {options : CallOptions τ} (htx : options.tx = none) {t : Target δ τ}
    {main : Queries δ τ} {mirrors : List (Queries δ τ)}
    (ht : t.writeRoute.target = newQueryStore main mirrors) {arg : S}
    {events : List (MethodEvent δ τ S V ε)} {result : V × Option (GoError ε)} :
    (t.write spec options true arg).Runs events (.done result) ↔
      ∃ rest, events = writeSpan t :: rest ∧
        WritesInTurn spec.toMirrorErrors arg main mirrors rest result := by
  have hcall : t.write (V := V) spec options true arg =
      .ask (.startPhysicalQuerySpan t.writeRoute.metadata .primary) fun _ =>
        WriteQueries.call spec ⟨main, mirrors⟩ arg := by
    simp [Target.write, hspec.kind, htx, Target.span, ht,
      QueryStore.call, newQueryStore]
  rw [hcall, Program.runs_ask_done]
  simp only [WriteQueries.call_runs hspec.returnsError hspec.ignoreMirrorError]
  constructor
  · rintro ⟨_, rest, rfl, hrest⟩
    exact ⟨rest, rfl, hrest⟩
  · rintro ⟨rest, rfl, hrest⟩
    exact ⟨(), rest, rfl, hrest⟩

theorem Target.Addresses.writeRoute_target {s : QueryReplicaSet δ τ} {t : Target δ τ}
    (h : t.Addresses s) :
    t.writeRoute.target = withMirrors s.primary.writer s.writeMirrors := by
  cases h <;> rfl

/-! ## The configured databases -/

/--
The main primary of the mapping that lists a virtual shard, and the primaries
of the mirrors that the first mapping of the main replica set lists.
-/
def MirroredTo (config : OpenMeshConfig π)
    (opened : List (OpenedSet (ReadQueries δ τ) (QueryStore δ τ))) (i : UInt64)
    (database : δ) (mirrors : List δ) : Prop :=
  ∃ mapping ∈ config.mappings, i ∈ mapping.virtualShardIndexes ∧
    ∃ first, config.mappings.find? (·.mainReplicaSet = mapping.mainReplicaSet) =
      some first ∧
    ∃ main ∈ opened, main.spec.name = mapping.mainReplicaSet ∧
      main.primary = newStoreNode database ∧
    ∃ mirrorSets, OpenedAs opened first.mirrorReplicaSets mirrorSets ∧
      mirrorSets.map OpenedSet.primary = mirrors.map newStoreNode

theorem exists_databases {sets : List (OpenedSet (ReadQueries δ τ) (QueryStore δ τ))}
    (h : ∀ o ∈ sets, ∃ database, o.primary = newStoreNode database) :
    ∃ databases : List δ, sets.map OpenedSet.primary = databases.map newStoreNode := by
  induction sets with
  | nil => exact ⟨[], rfl⟩
  | cons o sets ih =>
      obtain ⟨database, hdatabase⟩ := h o List.mem_cons_self
      obtain ⟨databases, hrest⟩ := ih fun o' ho' => h o' (List.mem_cons_of_mem _ ho')
      exact ⟨database :: databases, by simp [hdatabase, hrest]⟩

theorem Target.Addresses.target_of_madeFrom {s : QueryReplicaSet δ τ} {t : Target δ τ}
    (h : t.Addresses s) {main : OpenedSet (ReadQueries δ τ) (QueryStore δ τ)}
    {mirrorSets : List (OpenedSet (ReadQueries δ τ) (QueryStore δ τ))}
    (hmade : MadeFrom s main mirrorSets) {database : δ} {mirrors : List δ}
    (hmain : main.primary = newStoreNode database)
    (hmirrors : mirrorSets.map OpenedSet.primary = mirrors.map newStoreNode) :
    t.writeRoute.target =
      newQueryStore ⟨.pool database⟩ (mirrors.map fun d => ⟨.pool d⟩) := by
  have hwriters : s.writeMirrors = mirrors.map fun d => (newStoreNode d).writer := by
    have hmap := congrArg (List.map Node.writer) hmirrors
    rw [List.map_map, List.map_map] at hmap
    exact hmade.writeMirrors.trans hmap
  rw [h.writeRoute_target, hmade.primary, hmain, hwriters, withMirrors_newStoreNode]

variable [DecidableEq δ] [DecidableEq τ] [Inhabited κ] {virtualShardCount : UInt64}
  {openerIsNil : Bool} {shardHasher : Option (κ → UInt64)}
  {setMeterProvider : Option π → Option (GoError ε)}
  {options : List (Option (OpenMeshOption π))}

/--
A write outside a transaction runs on the main primary and, unless that fails,
on the primaries of the configured mirrors in turn.
-/
theorem write_runs_on_configured_mirrors
    {opening : List (OpenEvent (ReadQueries δ τ) (QueryStore δ τ) ε)}
    {mesh : Mesh (QueryReplicaSet δ τ) κ}
    (hopen : (openMesh virtualShardCount openerIsNil shardHasher setMeterProvider
      options).Runs opening (.done (some (.ok mesh))))
    (hnodes : ∀ event ∈ opening, ∀ node, event.answer = .ok node →
      ∃ database, node = newStoreNode database) :
    ∃ opened, opened.map OpenedSet.spec = (configOf virtualShardCount options).replicaSets ∧
      opening = opened.flatMap OpenedSet.events ∧
      ∀ (i : UInt64) (set : QueryReplicaSet δ τ),
        mesh.virtualShards[i.toNat]? = some set →
        ∃ database mirrors,
          MirroredTo (configOf virtualShardCount options) opened i database mirrors ∧
          ∀ (spec : QuerySpec ε) (storeOptions : List (Option (QueryOption τ)))
            (arg : S) (events : List (MethodEvent δ τ S V ε)),
            ReportsMirrors spec → (applyQueryOptions storeOptions).tx = none →
            (∀ t result, Target.Addresses set t →
              t.query (V := V) spec (applyQueryOptions storeOptions) true arg =
                t.write spec (applyQueryOptions storeOptions) true arg ∧
              ((t.write spec (applyQueryOptions storeOptions) true arg).Runs events
                  (.done result) ↔
                ∃ rest, events = writeSpan t :: rest ∧
                  WritesInTurn spec.toMirrorErrors arg ⟨.pool database⟩
                    (mirrors.map fun d => ⟨.pool d⟩) rest result)) ∧
            (∀ (s : MeshStore (QueryReplicaSet δ τ) κ A) (operand : A) result,
              s.mesh = mesh → mesh.hasher (s.shardKey operand) = i →
              ((queryShard s spec operand storeOptions arg).Runs events (.done result) ↔
                ∃ value rest, result = some value ∧
                  events = writeSpan (.ofShard ⟨i, set⟩) :: rest ∧
                  WritesInTurn spec.toMirrorErrors arg ⟨.pool database⟩
                    (mirrors.map fun d => ⟨.pool d⟩) rest value)) := by
  obtain ⟨opened, hspecs, rfl, hserves⟩ := openMesh_serves hopen
  refine ⟨opened, hspecs, rfl, ?_⟩
  have hprimary : ∀ o ∈ opened, ∃ database, o.primary = newStoreNode database := by
    intro o ho
    apply hnodes ⟨o.spec.primaryDSN, .ok o.primary⟩ _ _ rfl
    exact List.mem_flatMap.mpr ⟨o, ho, List.mem_cons_self⟩
  intro i set hset
  obtain ⟨mapping, hmapping, hi, first, hfirst, main, hmain, mirrorSets, hname,
    hopenedAs, hmade⟩ := hserves i set hset
  obtain ⟨database, hdatabase⟩ := hprimary main hmain
  obtain ⟨mirrors, hmirrors⟩ :=
    exists_databases fun o ho => hprimary o (hopenedAs.2 o ho)
  refine ⟨database, mirrors, ⟨mapping, hmapping, hi, first, hfirst, main, hmain, hname,
    hdatabase, mirrorSets, hopenedAs, hmirrors⟩, ?_⟩
  intro spec storeOptions arg events hspec htx
  have htarget : ∀ t result, Target.Addresses set t →
      ((t.write spec (applyQueryOptions storeOptions) true arg).Runs events
          (.done result) ↔
        ∃ rest, events = writeSpan t :: rest ∧
          WritesInTurn spec.toMirrorErrors arg ⟨.pool database⟩
            (mirrors.map fun d => ⟨.pool d⟩) rest result) := by
    intro t result ht
    exact Target.write_runs hspec htx (ht.target_of_madeFrom hmade hdatabase hmirrors)
  refine ⟨fun t result ht => ⟨Target.query_eq_write hspec _ t arg, htarget t result ht⟩, ?_⟩
  intro s operand result hmesh hkey
  have hresolve : s.resolve (ε := ε) operand = .ok ⟨i, set⟩ := by
    simp only [MeshStore.resolve, Mesh.resolve, hmesh, hkey, hset]
  simp only [queryShard, hresolve, hspec.returnsError, Target.query_eq_write hspec,
    Program.runs_bind_done]
  constructor
  · rintro ⟨before, value, after, rfl, hbefore, hafter⟩
    obtain ⟨rfl, hresult⟩ := Program.runs_done.mp hafter
    cases hresult
    obtain ⟨rest, hrest, hwrites⟩ := (htarget _ value (.shard i)).mp (by simpa using hbefore)
    exact ⟨value, rest, rfl, by simpa using hrest, hwrites⟩
  · rintro ⟨value, rest, rfl, hrest, hwrites⟩
    exact ⟨events, value, [], (List.append_nil _).symm,
      (htarget _ value (.shard i)).mpr ⟨rest, hrest, hwrites⟩, .refl _⟩

/-! ## Two sites that mirror each other -/

def mutualOptions : List (Option (OpenMeshOption Unit)) :=
  [some (.withReplicaSet "east" "e" ["e1"]), some (.withReplicaSet "west" "w" []),
    some (.withVirtualShardMapping "east" [0] ["west"]),
    some (.withVirtualShardMapping "west" [1] ["east"])]

/-- An opener that never fails. -/
def openDatabase (dsn : String) :
    Except (GoError Empty) (Node (ReadQueries String Nat) (QueryStore String Nat)) :=
  .ok (newStoreNode dsn)

def openMutual : Opening (ReadQueries String Nat) (QueryStore String Nat) Empty
    (Option (Except (GoError Empty) (Mesh (QueryReplicaSet String Nat) Nat))) :=
  openMesh 2 false (some UInt64.ofNat) (fun _ => none) mutualOptions

theorem write_runs_on_configured_mirrors_sites :
    ∃ mesh,
      openMutual.Runs (openMutual.eval openDatabase).1 (.done (some (.ok mesh))) ∧
      ∃ (opened : List (OpenedSet (ReadQueries String Nat) (QueryStore String Nat)))
        (database : String) (mirrors : List String),
        MirroredTo (configOf 2 mutualOptions) opened 0 database mirrors := by
  obtain ⟨mesh, hmesh⟩ : ∃ mesh,
      (openMutual.eval openDatabase).2 = some (.ok mesh) := ⟨_, rfl⟩
  have hopen := Program.runs_eval openDatabase openMutual
  rw [hmesh] at hopen
  have hnodes : ∀ event ∈ (openMutual.eval openDatabase).1, ∀ node,
      event.answer = .ok node → ∃ database, node = newStoreNode database := by
    intro event hevent node hnode
    rw [Program.answer_eq_of_mem_eval hevent] at hnode
    exact ⟨event.request, (Except.ok.inj hnode).symm⟩
  obtain ⟨opened, _, _, hmirrored⟩ :=
    @write_runs_on_configured_mirrors String Nat Unit Unit Empty Nat Unit Unit _ _ _ _
      _ _ _ _ _ _ _ hopen hnodes
  obtain ⟨database, mirrors, hdatabases, _⟩ := hmirrored 0 (mesh.virtualShards.head
    mesh.nonempty) (List.head?_eq_getElem? ▸ List.head?_eq_some_head mesh.nonempty)
  exact ⟨mesh, hopen, opened, database, mirrors, hdatabases⟩

end PgMesh.Store
