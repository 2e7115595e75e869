import PgMesh.Copy.Observers
import PgMesh.Telemetry.Spans
import Mathlib.Algebra.BigOperators.Ring.Finset

/-!
# Metrics of physical COPY operations

A generated store gives each of its batchers one observer, which records five measurements
of every physical COPY.  The measurements are compared with what the callers of the batcher
submitted and were told.
-/

namespace PgMesh.Copy

open PgMesh.Foundation

variable {α ε : Type}

/-- A submission fails exactly when a physical COPY with a row of it fails. -/
theorem Reachable.failed_iff {s : Batcher α ε} (h : Reachable s) {request : Nat}
    {value : Int64} {err : Option (GoError ε)} (houtcome : s.outcome request = some (value, err)) :
    err ≠ none ↔ ∃ runner ∈ s.own request, runner.err ≠ none := by
  have hne : s.outcome request ≠ none := by simp [houtcome]
  obtain ⟨-, hfinished, -⟩ := h.finished_of_outcome hne
  cases hq : s.requests[request]? with
  | none => simp [Batcher.outcome, hq] at houtcome
  | some q =>
      have hledger := h.inv.ledger.ledger request q hq
      have hreturned := h.inv.ledger.returned hfinished
      rw [Batcher.outcome_of_found hq] at houtcome hne
      have hverdict : q.verdict = (value, err) :=
        Option.some.inj ((hledger.stage.settled_of_outcome hne).1.symm.trans houtcome)
      have hsucceeded : (∀ runner ∈ s.own request,
          runner.outcome = some (Int64.ofNat runner.batch.rows.length, none)) ↔
            ∀ runner ∈ s.own request, runner.err = none :=
        forall₂_congr fun runner hrunner => (Runner.err_eq_none_iff (hreturned runner hrunner)).symm
      rcases hledger.verdict hfinished hreturned with ⟨hall, hsuccess⟩ | ⟨hfail, hjoined, -⟩
      · obtain ⟨-, rfl⟩ := Prod.mk.inj (hverdict.symm.trans hsuccess)
        have hnone := hsucceeded.mp hall
        simp +contextual [hnone]
      · obtain ⟨-, rfl⟩ := Prod.mk.inj (hverdict.symm.trans hjoined)
        rw [hsucceeded] at hfail
        simpa using hfail

namespace ObservedBatcher

variable {Ω : Type} {s : ObservedBatcher α Ω ε}

/-- An observer is told of an error exactly when a submission fails. -/
theorem Inv.error_seen_iff (h : s.Inv)
    (hresolved : ∀ request < s.batcher.accepted.length, s.batcher.outcome request ≠ none)
    {observer : Ω} (hobserver : some observer ∈ s.observers) :
    (∃ call ∈ s.calls, call.observation.err ≠ none) ↔
      ∃ request value err, s.batcher.outcome request = some (value, some err) := by
  constructor
  · rintro ⟨call, hcall, herr⟩
    obtain ⟨-, runner, hrunner, hobservation, -⟩ := h.call_observation hcall
    have hmem := List.mem_of_getElem? hrunner
    obtain ⟨request, hrequest, hlt⟩ := h.exists_request hmem
    obtain ⟨⟨value, err⟩, houtcome⟩ := Option.ne_none_iff_exists'.mp (hresolved request hlt)
    have hfailed : err ≠ none := by
      refine (h.reachable.failed_iff houtcome).mpr ⟨runner, ?_, ?_⟩
      · exact List.mem_filter.mpr ⟨hmem, by simpa using hrequest⟩
      · obtain ⟨_, -, heq⟩ := Option.map_eq_some_iff.mp hobservation
        rwa [← heq] at herr
    obtain ⟨err, rfl⟩ := Option.ne_none_iff_exists'.mp hfailed
    exact ⟨request, value, err, houtcome⟩
  · rintro ⟨request, value, err, houtcome⟩
    obtain ⟨runner, hown, herr⟩ := (h.reachable.failed_iff houtcome).mp (by simp)
    obtain ⟨hmem, hrequest⟩ := List.mem_filter.mp hown
    obtain ⟨i, hrunner⟩ := List.mem_iff_getElem?.mp hmem
    have hne : s.batcher.outcome request ≠ none := by simp [houtcome]
    obtain ⟨observation, hobservation, htold⟩ :=
      h.told_of_outcome hne hrunner (by simpa using hrequest)
    have hpair : (observer, observation) ∈ s.observed i := by
      rw [htold]
      exact List.mem_filterMap.mpr ⟨some observer, hobserver, rfl⟩
    obtain ⟨call, hcall, heq⟩ := List.mem_map.mp hpair
    obtain ⟨-, rfl⟩ := Prod.mk.inj heq
    refine ⟨call, (List.mem_filter.mp hcall).1, ?_⟩
    obtain ⟨_, -, heq⟩ := Option.map_eq_some_iff.mp hobservation
    rwa [← heq]

end ObservedBatcher

end PgMesh.Copy

namespace PgMesh.Store

open PgMesh.Foundation
open PgMesh.Topology
open PgMesh.Telemetry
open PgMesh.Copy

variable {α ε : Type}

def attributeCopyBatchFlushReason := "pgmesh.copy.batch.flush_reason"

/-- A batch that has not been detached has the zero value. -/
def flushReasonText : Option FlushReason → String
  | some .full => "full"
  | some .linger => "linger"
  | some .manual => "manual"
  | some .unbatched => "unbatched"
  | none => ""

inductive CopyInstrument where
  | rows
  | submissions
  | flushes
  | duration
  | queueDuration
  deriving DecidableEq

/-- A measurement of a physical COPY; durations are in nanoseconds. -/
structure CopyPoint where
  instrument : CopyInstrument
  value : Int
  attributes : List KeyValue
  deriving DecidableEq

/-- An observer of `NewCopyBatchObserver`, by what it was made from. -/
structure CopyBatchObserver where
  storeName : String
  queryName : String
  route : RouteMetadata
  deriving DecidableEq

namespace CopyBatchObserver

def baseAttributes (o : CopyBatchObserver) : List KeyValue :=
  [.string attributeStoreName o.storeName,
   .string attributeQueryName o.queryName,
   .string attributeQueryKind QueryKind.write.text,
   .string attributeReplicaSetName o.route.replicaSetName,
   .string attributeNodeName o.route.nodeName,
   .string attributeNodeRole o.route.nodeRole.text,
   .string attributeRouteMode (routeModeText (some .primary))] ++
    if o.route.hasVirtualShard then
      [.string attributeVirtualShardIndex (toString o.route.virtualShardIndex.toNat)]
    else []

def attributes (m : MeshTelemetry ε) (o : CopyBatchObserver) (observation : TimedObservation ε) :
    List KeyValue :=
  o.baseAttributes ++
    [.string attributeCopyBatchFlushReason (flushReasonText observation.reason)] ++
    errorAttributes m observation.err

def observe (m : MeshTelemetry ε) (o : CopyBatchObserver) (observation : TimedObservation ε) :
    List CopyPoint :=
  let attributes := o.attributes m observation
  [⟨.rows, observation.rowCount, attributes⟩,
   ⟨.submissions, observation.submissionCount, attributes⟩,
   ⟨.flushes, 1, attributes⟩,
   ⟨.duration, observation.executionDuration, attributes⟩,
   ⟨.queueDuration, observation.queueDuration, attributes⟩]

/-- The measurements carry what the span of the same physical COPY carries. -/
theorem baseAttributes_eq_physicalAttributes (o : CopyBatchObserver) :
    o.baseAttributes = physicalAttributes o.storeName o.queryName .write o.route .primary := rfl

end CopyBatchObserver

def CopyPoint.hasErrorType (p : CopyPoint) : Bool := p.attributes.any (·.key = "error.type")

/-- The measurements that the observers of a batcher have made. -/
def copyPoints (m : MeshTelemetry ε) (s : ObservedBatcher α CopyBatchObserver ε) :
    List CopyPoint :=
  s.calls.flatMap fun call => call.observer.observe m call.observation

def total (instrument : CopyInstrument) (points : List CopyPoint) : Int :=
  ((points.filter (·.instrument = instrument)).map (·.value)).sum

namespace CopyBatchObserver

variable {m : MeshTelemetry ε} {o : CopyBatchObserver} {observation : TimedObservation ε}

theorem attributes_of_mem {p : CopyPoint} (hp : p ∈ o.observe m observation) :
    p.attributes = o.attributes m observation := by
  simp only [observe, List.mem_cons, List.not_mem_nil, or_false] at hp
  rcases hp with rfl | rfl | rfl | rfl | rfl <;> rfl

theorem baseAttributes_any : o.baseAttributes.any (·.key = "error.type") = false := by
  unfold baseAttributes
  cases o.route.hasVirtualShard <;> rfl

theorem hasErrorType_of_mem {p : CopyPoint} (hp : p ∈ o.observe m observation) :
    p.hasErrorType = observation.err.isSome := by
  rw [CopyPoint.hasErrorType, attributes_of_mem hp, attributes, List.any_append, List.any_append,
    baseAttributes_any]
  cases observation.err <;> rfl

theorem total_rows : total .rows (o.observe m observation) = observation.rowCount := by
  simp [total, observe]

theorem total_flushes : total .flushes (o.observe m observation) = 1 := by
  simp [total, observe]

end CopyBatchObserver

theorem total_copyPoints (m : MeshTelemetry ε) (s : ObservedBatcher α CopyBatchObserver ε)
    (instrument : CopyInstrument) :
    total instrument (copyPoints m s) =
      (s.calls.map fun call => total instrument (call.observer.observe m call.observation)).sum := by
  simp only [total, copyPoints]
  induction s.calls with
  | nil => rfl
  | cons call calls ih =>
      rw [List.flatMap_cons, List.filter_append, List.map_append, List.sum_append, ih,
        List.map_cons, List.sum_cons]

/--
Once every future has resolved, the measurements of a batcher with the observer of a
generated store add up: the rows to the accepted rows, the flushes to the physical COPY
operations.  One of them has an error type exactly when some submission failed.  Each carries
the attributes of the span of its COPY.
-/
theorem copy_metrics_add_up {config : CopyBatchConfig} {observer : CopyBatchObserver}
    {now : Int} {start s : ObservedBatcher α CopyBatchObserver ε} (m : MeshTelemetry ε)
    (hnew : ObservedBatcher.newCopyBatcher config [some observer] now = .ok start)
    (hrun : Reaches ObservedBatcher.step start s)
    (hresolved : ∀ request < s.batcher.accepted.length, s.batcher.outcome request ≠ none) :
    total .rows (copyPoints m s) = (s.batcher.accepted.map (·.rows.length)).sum ∧
    total .flushes (copyPoints m s) = s.batcher.runners.length ∧
    ((∃ p ∈ copyPoints m s, p.hasErrorType = true) ↔
      ∃ request value err, s.batcher.outcome request = some (value, some err)) ∧
    ∀ p ∈ copyPoints m s, physicalAttributes observer.storeName observer.queryName .write
      observer.route .primary <+: p.attributes := by
  have h := ObservedBatcher.inv_of_run hnew hrun
  have hobservers := ObservedBatcher.observers_of_run hnew hrun
  obtain ⟨hrows, hcopies⟩ := h.seen_rows hresolved observer
  have hobserver : ∀ call ∈ s.calls, call.observer = observer := by
    intro call hcall
    have hmem := (h.call_observation hcall).1
    rw [hobservers, List.mem_singleton] at hmem
    exact Option.some.inj hmem
  have hall : s.calls.filter (·.observer = observer) = s.calls :=
    List.filter_eq_self.mpr fun call hcall => by simpa using hobserver call hcall
  rw [hobservers, List.count_singleton_self, Nat.one_mul, ObservedBatcher.seen, hall]
    at hrows hcopies
  refine ⟨?_, ?_, ?_, ?_⟩
  · rw [total_copyPoints, ← hrows, Nat.cast_list_sum, List.map_map]
    exact congrArg List.sum (List.map_congr_left fun _ _ => CopyBatchObserver.total_rows)
  · rw [total_copyPoints, ← hcopies, Nat.cast_list_sum, List.map_map]
    exact congrArg List.sum (List.map_congr_left fun _ _ => CopyBatchObserver.total_flushes)
  · rw [← h.error_seen_iff hresolved (hobservers ▸ List.mem_singleton_self _)]
    simp only [copyPoints, List.mem_flatMap]
    constructor
    · rintro ⟨p, ⟨call, hcall, hp⟩, herr⟩
      rw [CopyBatchObserver.hasErrorType_of_mem hp] at herr
      exact ⟨call, hcall, Option.isSome_iff_ne_none.mp herr⟩
    · rintro ⟨call, hcall, herr⟩
      have hp : _ ∈ call.observer.observe m call.observation := List.mem_cons_self
      refine ⟨_, ⟨call, hcall, hp⟩, ?_⟩
      rw [CopyBatchObserver.hasErrorType_of_mem hp]
      exact Option.isSome_iff_ne_none.mpr herr
  · intro p hp
    obtain ⟨call, hcall, hp⟩ := List.mem_flatMap.mp hp
    rw [CopyBatchObserver.attributes_of_mem hp, ← hobserver call hcall,
      ← CopyBatchObserver.baseAttributes_eq_physicalAttributes, CopyBatchObserver.attributes,
      List.append_assoc]
    exact List.prefix_append _ _

/-! ## A run

The physical COPY of two rows reports one row.
-/

def mismatchConfig : CopyBatchConfig := ⟨2, 1000000, 1⟩

def mismatchObserver : CopyBatchObserver :=
  ⟨"event", "CreateEvents", ⟨0, false, "main", "main-primary", .primary⟩⟩

def mismatchStart : ObservedBatcher Nat CopyBatchObserver Unit :=
  ⟨.initial (mismatchConfig.accepted (ε := Unit) rfl), [some mismatchObserver], 0, fun _ => 0,
    [], []⟩

def mismatchTrace : List (ObservedAction Nat Unit) :=
  [.batcher (.submit [1, 2] false none none), .batcher .place, .batcher .unlock, .start 0, .tick 5,
   .copyReturns 0 1 none, .observe 0, .batcher (.finishPart 0), .batcher (.resolve 0),
   .batcher (.complete 0)]

def mismatchState : ObservedBatcher Nat CopyBatchObserver Unit :=
  (runFrom ObservedBatcher.step mismatchStart mismatchTrace).getD mismatchStart

def mismatchTelemetry : MeshTelemetry Unit := ⟨0, false, fun _ => "*fmt.wrapError", fun _ => ""⟩

theorem copy_metrics_add_up_mismatch :
    total .rows (copyPoints mismatchTelemetry mismatchState) = 2 ∧
      ∃ p ∈ copyPoints mismatchTelemetry mismatchState, p.hasErrorType = true := by
  have hnew : ObservedBatcher.newCopyBatcher mismatchConfig [some mismatchObserver] 0 =
      .ok mismatchStart := rfl
  have hrun : Reaches ObservedBatcher.step mismatchStart mismatchState := ⟨mismatchTrace, rfl⟩
  have hresolved : ∀ request < mismatchState.batcher.accepted.length,
      mismatchState.batcher.outcome request ≠ none := by decide
  have hsums := copy_metrics_add_up mismatchTelemetry hnew hrun hresolved
  refine ⟨hsums.1, hsums.2.2.1.mpr ⟨0, 0, _, rfl⟩⟩

end PgMesh.Store
