import PgMesh.Telemetry.Backend

/-!
# The shares of spans

What each function of a span does to a share that holds nothing but this span:
at any time there is one span, with the parent that it was started under, and it
is in flight only while it is open.
-/

namespace PgMesh.Telemetry

open PgMesh.Foundation
open PgMesh.Topology
open PgMesh.Store
open Program (Follows)

variable {ε X : Type} {B : X → Type} {Needs : X → Share ε → Prop} {w : Share ε}
  {parent : Option Nat}

/-- At most one span, open while it is in flight. -/
def OneSpan (parent : Option Nat) (w : Share ε) : Prop :=
  w.spans = 0 ∧ w.inFlight = 0 ∨
    ∃ record span, w.spans = {(record, span)} ∧ record.parent = parent ∧
      (w.inFlight = 0 ∨ w.inFlight = {record.attributes} ∧ record.ended = false)

theorem oneSpan_zero : OneSpan parent (0 : Share ε) := .inl ⟨rfl, rfl⟩

/-- One span that is not in flight. -/
abbrev Share.idle (record : SpanRecord ε) (span : Nat) (points : Multiset Point)
    (logs : Multiset (LogRecord ε)) : Share ε :=
  ⟨{(record, span)}, 0, points, logs⟩

theorem oneSpan_idle {record : SpanRecord ε} {span : Nat} {points : Multiset Point}
    {logs : Multiset (LogRecord ε)} (hparent : record.parent = parent) :
    OneSpan parent (Share.idle record span points logs) :=
  .inr ⟨record, span, rfl, hparent, .inl rfl⟩

namespace SpanRecord

@[simp] theorem apply_parent (r : SpanRecord ε) (operation : SpanOperation ε) :
    (r.apply operation).parent = r.parent := by
  unfold apply
  split
  · rfl
  · cases operation <;> rfl

@[simp] theorem apply_name (r : SpanRecord ε) (operation : SpanOperation ε) :
    (r.apply operation).name = r.name := by
  unfold apply
  split
  · rfl
  · cases operation <;> rfl

@[simp] theorem ended_apply_finish (r : SpanRecord ε) : (r.apply .finish).ended = true := by
  unfold apply
  split
  · assumption
  · rfl

/-- The span after the branch of `End` on an error. -/
def fail (m : MeshTelemetry ε) (r : SpanRecord ε) : Option (GoError ε) → SpanRecord ε
  | none => r
  | some err =>
      ((r.apply (.recordError err)).apply (.setAttributes [errorTypeAttribute m err])).apply
        (.setStatus (m.errorText err))

@[simp] theorem fail_parent (m : MeshTelemetry ε) (r : SpanRecord ε)
    (err : Option (GoError ε)) : (r.fail m err).parent = r.parent := by
  cases err <;> simp [fail]

@[simp] theorem fail_name (m : MeshTelemetry ε) (r : SpanRecord ε)
    (err : Option (GoError ε)) : (r.fail m err).name = r.name := by
  cases err <;> simp [fail]

end SpanRecord

/-! ## Operations -/

section Operations

variable {α : Type} {I : Share ε → Prop} {post : α → Share ε → Prop} {operation : Operation ε}

theorem follows_perform {post : operation.Answer → Share ε → Prop} (hinv : I w)
    (h : ∀ answer, ∃ w', w.Performs operation answer w' ∧ I w' ∧ post answer w') :
    (perform operation : Traced ε X B _).Follows (Share.Update Needs) I post w := by
  refine Program.follows_request hinv fun answer => ?_
  obtain ⟨w', hperforms, hrest⟩ := h answer
  exact ⟨w', .perform hperforms, hrest⟩

theorem follows_perform_bind {next : operation.Answer → Traced ε X B α} (hinv : I w)
    (h : ∀ answer, ∃ w', w.Performs operation answer w' ∧
      (next answer).Follows (Share.Update Needs) I post w') :
    (perform operation >>= next).Follows (Share.Update Needs) I post w := by
  refine ⟨hinv, fun answer => ?_⟩
  obtain ⟨w', hperforms, hnext⟩ := h answer
  exact ⟨w', .perform hperforms, hnext⟩

end Operations

section OneSpan

variable {record : SpanRecord ε} {span : Nat} {points : Multiset Point}
  {logs : Multiset (LogRecord ε)}

theorem onSpan_follows {operation : SpanOperation ε} (hparent : record.parent = parent) :
    (onSpan span operation : Traced ε X B Unit).Follows (Share.Update Needs) (OneSpan parent)
      (fun _ w => w = .idle (record.apply operation) span points logs)
      (.idle record span points logs) :=
  follows_perform (oneSpan_idle hparent) fun _ =>
    ⟨_, .onSpan _ span record 0 _ rfl, oneSpan_idle (by simpa), rfl⟩

theorem recordFailure_follows {m : MeshTelemetry ε} {err : Option (GoError ε)}
    (hparent : record.parent = parent) :
    (recordFailure m span err : Traced ε X B Unit).Follows (Share.Update Needs)
      (OneSpan parent) (fun _ w => w = .idle (record.fail m err) span points logs)
      (.idle record span points logs) := by
  cases err with
  | none => exact ⟨oneSpan_idle hparent, rfl⟩
  | some err =>
      refine (onSpan_follows hparent).bind ?_
      rintro _ _ - rfl
      refine (onSpan_follows (by simpa)).bind ?_
      rintro _ _ - rfl
      exact onSpan_follows (by simpa)

theorem record_follows {α : Type} {post : α → Share ε → Prop} {point : Point}
    {next : Unit → Traced ε X B α} (hparent : record.parent = parent)
    (h : (next ()).Follows (Share.Update Needs) (OneSpan parent) post
      (.idle record span (point ::ₘ points) logs)) :
    (perform (.record point) >>= next).Follows (Share.Update Needs) (OneSpan parent) post
      (.idle record span points logs) :=
  follows_perform_bind (oneSpan_idle hparent) fun _ => ⟨_, .record _ point, h⟩

theorem logCompleted_follows {m : MeshTelemetry ε} {message : String}
    {logAttributes : List (String × LogValue ε)} {duration : Int} {err : Option (GoError ε)}
    (hparent : record.parent = parent) :
    (logCompleted m message logAttributes duration err : Traced ε X B Unit).Follows
      (Share.Update Needs) (OneSpan parent)
      (fun _ w => ∃ logs', w = .idle record span points logs')
      (.idle record span points logs) := by
  unfold logCompleted
  cases m.hasLogger with
  | false => exact ⟨oneSpan_idle hparent, logs, rfl⟩
  | true =>
      refine follows_perform_bind (oneSpan_idle hparent) fun enabled =>
        ⟨_, .enabled _ enabled, ?_⟩
      cases (enabled : Bool) with
      | false => exact ⟨oneSpan_idle hparent, logs, rfl⟩
      | true =>
          exact follows_perform (oneSpan_idle hparent) fun _ =>
            ⟨_, .logAttrs _ _, oneSpan_idle hparent, _, rfl⟩

/-- What the three methods `End` have in common after their measurement. -/
theorem completed_follows {m : MeshTelemetry ε} {message : String}
    {logAttributes : List (String × LogValue ε)} {duration : Int} {err : Option (GoError ε)}
    (hparent : record.parent = parent) :
    (logCompleted m message logAttributes duration err >>= fun _ => onSpan span .finish :
      Traced ε X B Unit).Follows (Share.Update Needs) (OneSpan parent)
      (fun _ w => ∃ logs', w = .idle (record.apply .finish) span points logs')
      (.idle record span points logs) := by
  refine (logCompleted_follows hparent).bind ?_
  rintro _ _ - ⟨logs', rfl⟩
  refine (onSpan_follows hparent).mono (fun _ h => h) ?_
  rintro _ _ - rfl
  exact ⟨logs', rfl⟩

end OneSpan

/-! ## Logical queries -/

def logicalName (storeName queryName : String) : String :=
  "pgmesh.query.logical." ++ storeName ++ "." ++ queryName

/-- The attributes of the measurement of a logical query; `none` is a route not resolved. -/
def logicalAttributes (storeName queryName : String) (kind : QueryKind)
    (route : Option (RouteMode × Nat)) : List KeyValue :=
  queryAttributes storeName queryName kind ++
    [.string attributeRouteMode (routeModeText (route.map Prod.fst)),
     .string attributeRouteScope
      ((route.map fun r => routeScope r.2).getD .unresolved).text]

/-- The span of a logical query with this route is open. -/
structure LogicalOpen (m : MeshTelemetry ε) (parent : Option Nat) (storeName queryName : String)
    (kind : QueryKind) (route : Option (RouteMode × Nat)) (s : LogicalQuerySpan ε)
    (w : Share ε) : Prop where
  share : ∃ record, w = .idle record s.span 0 0 ∧ record.parent = parent ∧
    record.name = logicalName storeName queryName ∧ record.ended = false
  telemetry : s.telemetry = m
  storeName_eq : s.storeName = storeName
  queryName_eq : s.queryName = queryName
  kind_eq : s.kind = kind
  attributes : s.attributes = queryAttributes storeName queryName kind
  routeMode : s.routeMode = route.map Prod.fst
  routeScope : s.routeScope = (route.map fun r => routeScope r.2).getD .unresolved

/-- The span of a logical query has ended, with one measurement of its duration. -/
def LogicalDone (m : MeshTelemetry ε) (parent : Option Nat) (storeName queryName : String)
    (kind : QueryKind) (route : Option (RouteMode × Nat)) (err : Option (GoError ε))
    (span : Nat) (w : Share ε) : Prop :=
  ∃ record duration logs, record.parent = parent ∧
    record.name = logicalName storeName queryName ∧ record.ended = true ∧
      w = .idle record span
        {⟨.logicalDuration, duration,
          logicalAttributes storeName queryName kind route ++ errorAttributes m err⟩} logs

section Logical

variable {m : MeshTelemetry ε} {ctx : Context} {storeName queryName : String}
  {kind : QueryKind} {route : Option (RouteMode × Nat)} {s : LogicalQuerySpan ε}

theorem markExecuted_follows :
    (markExecuted m ctx : Traced ε X B Unit).Follows (Share.Update Needs) (OneSpan parent)
      (fun _ w => w = 0) 0 := by
  unfold markExecuted
  cases ctx.execution with
  | none => exact ⟨oneSpan_zero, rfl⟩
  | some execution =>
      by_cases howner : execution.owner = m.mesh
      · simp only [howner]
        exact follows_perform oneSpan_zero fun _ =>
          ⟨0, .storeExecuted _ _, oneSpan_zero, rfl⟩
      · simp only [howner]
        exact ⟨oneSpan_zero, rfl⟩

theorem startLogicalQuerySpan_follows :
    (startLogicalQuerySpan m ctx storeName queryName kind : Traced ε X B _).Follows
      (Share.Update Needs) (OneSpan ctx.span)
      (fun r w => r.1.span = some r.2.span ∧
        LogicalOpen m ctx.span storeName queryName kind none r.2 w) 0 := by
  refine markExecuted_follows.bind ?_
  rintro _ _ - rfl
  refine follows_perform_bind oneSpan_zero fun span => ⟨_, .start _ _ _ _ _, ?_⟩
  refine follows_perform_bind (oneSpan_idle rfl) fun started => ⟨_, .now _ _, ?_⟩
  exact ⟨oneSpan_idle rfl, rfl, ⟨_, rfl, rfl, rfl, rfl⟩, rfl, rfl, rfl, rfl, rfl, rfl, rfl⟩

theorem LogicalOpen.setRoute_follows {mode : RouteMode} {replicaSetCount : Nat}
    (hopen : LogicalOpen m parent storeName queryName kind route s w) :
    (s.setRoute mode replicaSetCount : Traced ε X B _).Follows (Share.Update Needs)
      (OneSpan parent)
      (fun s' w => s'.span = s.span ∧
        LogicalOpen m parent storeName queryName kind (some (mode, replicaSetCount)) s' w)
      w := by
  obtain ⟨record, rfl, hparent, hname, hended⟩ := hopen.share
  refine (onSpan_follows hparent).bind ?_
  rintro _ _ hone rfl
  refine ⟨hone, rfl, ⟨_, rfl, by simpa, by simpa, ?_⟩, hopen.telemetry, hopen.storeName_eq,
    hopen.queryName_eq, hopen.kind_eq, hopen.attributes, rfl, rfl⟩
  simp [SpanRecord.apply, hended]

theorem LogicalOpen.finish_follows {err : Option (GoError ε)}
    (hopen : LogicalOpen m parent storeName queryName kind route s w) :
    (s.finish err : Traced ε X B Unit).Follows (Share.Update Needs) (OneSpan parent)
      (fun _ w => LogicalDone m parent storeName queryName kind route err s.span w) w := by
  obtain ⟨record, rfl, hparent, hname, hended⟩ := hopen.share
  refine follows_perform_bind (oneSpan_idle hparent) fun (now : Int) =>
    ⟨_, .now _ _, ?_⟩
  refine (recordFailure_follows hparent).bind ?_
  rintro _ _ - rfl
  refine record_follows (by simpa) ?_
  refine (completed_follows (by simpa)).mono (fun _ h => h) ?_
  rintro _ _ - ⟨logs, rfl⟩
  refine ⟨(record.fail s.telemetry err).apply .finish, now - s.started, logs, by simpa,
    by simpa, SpanRecord.ended_apply_finish _, ?_⟩
  rw [hopen.attributes, hopen.telemetry, hopen.routeMode, hopen.routeScope]
  rfl

end Logical

/-! ## Physical queries -/

def physicalName (storeName queryName : String) : String :=
  "pgmesh.query.physical." ++ storeName ++ "." ++ queryName

/-- The span of a physical query has ended, with one measurement of its duration. -/
def PhysicalDone (m : MeshTelemetry ε) (parent : Option Nat) (storeName queryName : String)
    (kind : QueryKind) (route : RouteMetadata) (mode : RouteMode) (err : Option (GoError ε))
    (w : Share ε) : Prop :=
  ∃ record span duration logs, record.parent = parent ∧
    record.name = physicalName storeName queryName ∧ record.ended = true ∧
      w = .idle record span
        {⟨.physicalDuration, duration,
          physicalAttributes storeName queryName kind route mode ++ errorAttributes m err⟩}
        logs

section Physical

variable {V : Type} {m : MeshTelemetry ε} {ctx : Context} {storeName queryName : String}
  {kind : QueryKind} {route : RouteMetadata} {mode : RouteMode}
  {body : Traced ε X B (V × Option (GoError ε))}

/-- The span of a physical query is open, and the query is in flight. -/
structure PhysicalOpen (m : MeshTelemetry ε) (parent : Option Nat)
    (storeName queryName : String) (metricAttributes : List KeyValue)
    (s : PhysicalQuerySpan ε) (w : Share ε) : Prop where
  share : w = ⟨{(.started parent (physicalName storeName queryName) metricAttributes, s.span)},
    {metricAttributes}, 0, 0⟩
  telemetry : s.telemetry = m
  metricAttributes_eq : s.metricAttributes = metricAttributes

theorem PhysicalOpen.oneSpan {metricAttributes : List KeyValue} {s : PhysicalQuerySpan ε}
    (h : PhysicalOpen m parent storeName queryName metricAttributes s w) :
    OneSpan parent w := by
  obtain ⟨rfl, -, -⟩ := h
  exact .inr ⟨_, _, rfl, rfl, .inr ⟨rfl, rfl⟩⟩

theorem startPhysicalQuerySpan_follows :
    (startPhysicalQuerySpan m ctx storeName queryName kind route mode :
      Traced ε X B _).Follows (Share.Update Needs) (OneSpan ctx.span)
      (fun r w => PhysicalOpen m ctx.span storeName queryName
        (physicalAttributes storeName queryName kind route mode) r.2 w) 0 := by
  refine follows_perform_bind oneSpan_zero fun span => ⟨_, .start _ _ _ _ _, ?_⟩
  refine follows_perform_bind (oneSpan_idle rfl) fun _ => ⟨_, .increase _ _ rfl, ?_⟩
  have hopen : ∀ started, PhysicalOpen m ctx.span storeName queryName
      (physicalAttributes storeName queryName kind route mode)
      ⟨m, span, started, physicalAttributes storeName queryName kind route mode,
        physicalLogAttributes storeName queryName kind route mode⟩
      ⟨{(.started ctx.span (physicalName storeName queryName)
        (physicalAttributes storeName queryName kind route mode), span)},
        {physicalAttributes storeName queryName kind route mode}, 0, 0⟩ :=
    fun _ => ⟨rfl, rfl, rfl⟩
  exact follows_perform_bind (hopen 0).oneSpan fun started =>
    ⟨_, .now _ _, (hopen started).oneSpan, hopen started⟩

theorem PhysicalOpen.finish_follows {s : PhysicalQuerySpan ε} {err : Option (GoError ε)}
    (hopen : PhysicalOpen m parent storeName queryName
      (physicalAttributes storeName queryName kind route mode) s w) :
    (s.finish err : Traced ε X B Unit).Follows (Share.Update Needs) (OneSpan parent)
      (fun _ w => PhysicalDone m parent storeName queryName kind route mode err w) w := by
  have hone := hopen.oneSpan
  obtain ⟨rfl, htelemetry, hattributes⟩ := hopen
  have hparent : (SpanRecord.started parent (physicalName storeName queryName)
      (physicalAttributes storeName queryName kind route mode) : SpanRecord ε).parent = parent :=
    rfl
  refine follows_perform_bind hone fun (now : Int) => ⟨_, .now _ _, ?_⟩
  refine follows_perform_bind hone fun _ => ⟨_, .decrease _ _ (by rw [hattributes]), ?_⟩
  refine (recordFailure_follows hparent).bind ?_
  rintro _ _ - rfl
  refine record_follows (by simpa) ?_
  refine (completed_follows (by simpa)).mono (fun _ h => h) ?_
  rintro _ _ - ⟨logs, rfl⟩
  refine ⟨(SpanRecord.fail s.telemetry _ err).apply .finish, s.span, now - s.started, logs,
    by simpa, by simp [SpanRecord.started], SpanRecord.ended_apply_finish _, ?_⟩
  rw [hattributes, htelemetry]
  rfl

/-- A statement is executed while it is in flight. -/
theorem physical_follows {P : Operation ε ⊕ X → Prop} (hbody : body.Asks P)
    (hneeds : ∀ request, P request → ∃ x, request = .inr x ∧
      ∀ w : Share ε, w.inFlight ≠ 0 → Needs x w) :
    (do
      let r ← startPhysicalQuerySpan m ctx storeName queryName kind route mode
      let result ← body
      r.2.finish result.2
      return result : Traced ε X B _).Follows (Share.Update Needs) (OneSpan ctx.span)
      (fun result w =>
        PhysicalDone m ctx.span storeName queryName kind route mode result.2 w) 0 := by
  refine startPhysicalQuerySpan_follows.bind ?_
  rintro r w hone hopen
  have hexecute : body.Follows (Share.Update Needs) (OneSpan ctx.span) (fun _ w' => w' = w) w := by
    refine hbody.follows ?_ hone fun _ => rfl
    intro request hrequest answer
    obtain ⟨x, rfl, hx⟩ := hneeds request hrequest
    refine Share.Update.other (B := B) answer (hx w ?_)
    rw [hopen.share]
    exact Multiset.singleton_ne_zero _
  refine hexecute.bind ?_
  rintro result _ - rfl
  refine hopen.finish_follows.bind ?_
  rintro _ w hone hdone
  exact ⟨hone, hdone⟩

end Physical

/-! ## Calls of wrapped stores -/

def storeSpanName (storeName queryName : String) : String :=
  "pgmesh.query.store." ++ storeName ++ "." ++ queryName

structure StoreOpen (m : MeshTelemetry ε) (parent : Option Nat) (storeName queryName : String)
    (kind : QueryKind) (s : StoreQuerySpan ε) (w : Share ε) : Prop where
  share : ∃ record, w = .idle record s.span 0 0 ∧ record.parent = parent ∧
    record.name = storeSpanName storeName queryName
  telemetry : s.telemetry = m
  attributes : s.attributes = queryAttributes storeName queryName kind

/-- The span of a wrapped call has ended, with one measurement of its duration. -/
def StoreDone (m : MeshTelemetry ε) (parent : Option Nat) (storeName queryName : String)
    (kind : QueryKind) (err : Option (GoError ε)) (w : Share ε) : Prop :=
  ∃ record span duration delegated logs, record.parent = parent ∧
    record.name = storeSpanName storeName queryName ∧ record.ended = true ∧
      w = .idle record span
        {⟨.storeDuration, duration,
          queryAttributes storeName queryName kind ++
            [⟨attributeStoreDelegated, .bool delegated⟩] ++ errorAttributes m err⟩} logs

section Wrapped

variable {m : MeshTelemetry ε} {ctx : Context} {storeName queryName : String}
  {kind : QueryKind}

theorem startStoreQuerySpan_follows :
    (startStoreQuerySpan m ctx storeName queryName kind : Traced ε X B _).Follows
      (Share.Update Needs) (OneSpan ctx.span)
      (fun r w => StoreOpen m ctx.span storeName queryName kind r.2 w) 0 := by
  refine follows_perform_bind oneSpan_zero fun span => ⟨_, .start _ _ _ _ _, ?_⟩
  refine follows_perform_bind (oneSpan_idle rfl) fun address => ⟨_, .newExecution _ _, ?_⟩
  refine follows_perform_bind (oneSpan_idle rfl) fun started => ⟨_, .now _ _, ?_⟩
  exact ⟨oneSpan_idle rfl, ⟨_, rfl, rfl, rfl⟩, rfl, rfl⟩

theorem StoreOpen.finish_follows {s : StoreQuerySpan ε} {err : Option (GoError ε)}
    (hopen : StoreOpen m parent storeName queryName kind s w) :
    (s.finish err : Traced ε X B Unit).Follows (Share.Update Needs) (OneSpan parent)
      (fun _ w => StoreDone m parent storeName queryName kind err w) w := by
  obtain ⟨record, rfl, hparent, hname⟩ := hopen.share
  refine follows_perform_bind (oneSpan_idle hparent) fun (now : Int) => ⟨_, .now _ _, ?_⟩
  refine follows_perform_bind (oneSpan_idle hparent) fun (delegated : Bool) =>
    ⟨_, .loadExecuted _ _ _, ?_⟩
  refine (onSpan_follows hparent).bind ?_
  rintro _ _ - rfl
  refine (recordFailure_follows (by simpa)).bind ?_
  rintro _ _ - rfl
  refine record_follows (by simpa) ?_
  refine (completed_follows (by simpa)).mono (fun _ h => h) ?_
  rintro _ _ - ⟨logs, rfl⟩
  refine ⟨((record.apply (.setAttributes [⟨attributeStoreDelegated, .bool delegated⟩])).fail
    s.telemetry err).apply .finish, s.span, now - s.started, delegated, logs, by simpa, by simpa,
    SpanRecord.ended_apply_finish _, ?_⟩
  rw [hopen.attributes, hopen.telemetry]
  rfl

end Wrapped

end PgMesh.Telemetry
