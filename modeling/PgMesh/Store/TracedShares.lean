import PgMesh.Store.TracedCalls
import PgMesh.Telemetry.SpanShares

/-!
# The shares of the generated calls

A call owns the span of its logical query and the spans of its physical ones,
which are open only while the logical span is.  When it returns, all of them
have ended, and each has been measured once.
-/

namespace PgMesh.Store

open PgMesh.Foundation
open PgMesh.Topology
open PgMesh.Telemetry
open Program (Follows)

variable {δ τ S V M R ε : Type}

/-- A statement is sent only while it is in flight. -/
def StoreRequest.Needs : StoreRequest δ τ M → Share ε → Prop
  | .execute _ _, w => w.inFlight ≠ 0
  | _, _ => True

abbrev TracedEvent (δ τ M R ε : Type) :=
  Event (Operation ε ⊕ StoreRequest δ τ M)
    (Sum.elim Operation.Answer (StoreRequest.Answer R ε))

abbrev TracedUpdate (δ τ M R ε : Type) :
    Share ε → TracedEvent δ τ M R ε → Share ε → Prop :=
  Share.Update StoreRequest.Needs

theorem StoreRequest.needs_add {request : StoreRequest δ τ M} {w rest : Share ε}
    (h : request.Needs w) : request.Needs (rest + w) := by
  cases request with
  | add counter => trivial
  | execute queries message =>
      intro hnone
      refine h (Multiset.le_zero.mp ?_)
      rw [← hnone]
      exact Multiset.le_add_left _ _
  | wait => trivial

theorem tracedUpdate_frame {rest : Share ε} (hrest : rest.inFlight = 0) {w w' : Share ε}
    {event : TracedEvent δ τ M R ε}
    (h : TracedUpdate δ τ M R ε w event w') :
    TracedUpdate δ τ M R ε (rest + w) event (rest + w') :=
  h.frame hrest fun _ _ => StoreRequest.needs_add

theorem needs_of_inFlight : ∀ request : Operation ε ⊕ StoreRequest δ τ M,
    (∃ x, request = Sum.inr x) →
      ∃ x, request = Sum.inr x ∧ ∀ w : Share ε, w.inFlight ≠ 0 → x.Needs w := by
  rintro _ ⟨x, rfl⟩
  refine ⟨x, rfl, fun w hflight => ?_⟩
  cases x with
  | add counter => trivial
  | execute queries message => exact hflight
  | wait => trivial

/-! ## One target -/

/-- The routes that a target can give to a call. -/
def Target.Offers (t : Target δ τ) (metadata : RouteMetadata) : Prop :=
  metadata = t.writeRoute.metadata ∨ ∃ added, metadata = (t.readRoute added).metadata

/-- The physical query on one target has ended. -/
def TargetDone (q : TracedQuery ε) (parent : Nat) (mode : RouteMode) (t : Target δ τ)
    (err : Option (GoError ε)) (w : Share ε) : Prop :=
  ∃ metadata, t.Offers metadata ∧
    PhysicalDone q.telemetry (some parent) q.storeName q.queryName q.kind metadata mode err w

theorem Statement.run_asks {α : Type} (statement : Statement S V M R ε)
    (method : Method δ τ S V ε α) :
    (statement.run method).Asks fun request => ∃ x, request = Sum.inr x := by
  refine Program.translate_asks ?_ method
  intro request
  cases request with
  | add counter => exact ⟨⟨_, rfl⟩, fun _ => trivial⟩
  | startPhysicalQuerySpan metadata mode => trivial
  | execute queries arg => exact ⟨⟨_, rfl⟩, fun _ => trivial⟩

section Target

variable {q : TracedQuery ε} {s : LogicalQuerySpan ε} {ctx : Context}
  {route : Option (RouteMode × Nat)} {parent : Option Nat} {w : Share ε}
  {statement : Statement S V M R ε} {spec : QuerySpec ε} {options : CallOptions τ}
  {mode : RouteMode} {t : Target δ τ} {arg : S}

/-- The span of the logical query of a call is open. -/
abbrev TracedQuery.Open (q : TracedQuery ε) (route : Option (RouteMode × Nat))
    (s : LogicalQuerySpan ε) (w : Share ε) : Prop :=
  LogicalOpen q.telemetry q.ctx.span q.storeName q.queryName q.kind route s w

theorem physicalQuery_follows {metadata : RouteMetadata}
    {call : TracedMethod δ τ M R ε (V × Option (GoError ε))} (hopen : q.Open route s w)
    (hctx : ctx.span = some s.span) (hcall : call.Asks fun request => ∃ x, request = Sum.inr x) :
    (physicalQuery s ctx metadata mode call).Follows (TracedUpdate δ τ M R ε)
      (OneSpan (some s.span))
      (fun result w => PhysicalDone q.telemetry (some s.span) q.storeName q.queryName q.kind
        metadata mode result.2 w) 0 := by
  unfold physicalQuery LogicalQuerySpan.startPhysicalQuerySpan
  rw [hopen.telemetry, hopen.storeName_eq, hopen.queryName_eq, hopen.kind_eq, ← hctx]
  exact physical_follows hcall needs_of_inFlight

variable [Inhabited V]

theorem Target.tracedWrite_follows (hopen : q.Open route s w) (hctx : ctx.span = some s.span) :
    (t.tracedWrite statement spec options s ctx mode arg :
      TracedMethod δ τ M R ε (V × Option (GoError ε))).Follows (TracedUpdate δ τ M R ε)
      (OneSpan (some s.span)) (fun result w => TargetDone q s.span mode t result.2 w) 0 := by
  refine (physicalQuery_follows hopen hctx (statement.run_asks _)).mono (fun _ h => h) ?_
  intro result w _ hdone
  exact ⟨_, .inl rfl, hdone⟩

theorem Target.tracedRead_follows (hopen : q.Open route s w) (hctx : ctx.span = some s.span) :
    (t.tracedRead statement spec options s ctx mode arg :
      TracedMethod δ τ M R ε (V × Option (GoError ε))).Follows (TracedUpdate δ τ M R ε)
      (OneSpan (some s.span)) (fun result w => TargetDone q s.span mode t result.2 w) 0 := by
  unfold Target.tracedRead
  split
  · exact tracedWrite_follows hopen hctx
  · exact tracedWrite_follows hopen hctx
  · refine ⟨oneSpan_zero, fun added => ⟨0, .other _ trivial, ?_⟩⟩
    refine (physicalQuery_follows hopen hctx (statement.run_asks _)).mono (fun _ h => h) ?_
    intro result w _ hdone
    exact ⟨_, .inr ⟨added, rfl⟩, hdone⟩

theorem Target.tracedQuery_follows {copies : Bool} (hopen : q.Open route s w)
    (hctx : ctx.span = some s.span) :
    (t.tracedQuery statement spec options copies s ctx mode arg :
      TracedMethod δ τ M R ε (V × Option (GoError ε))).Follows (TracedUpdate δ τ M R ε)
      (OneSpan (some s.span)) (fun result w => TargetDone q s.span mode t result.2 w) 0 := by
  unfold Target.tracedQuery
  split
  · exact tracedRead_follows hopen hctx
  · exact tracedWrite_follows hopen hctx

end Target

/-! ## Calls -/

/-- Nothing is in flight, and every span has ended. -/
def Closed (w : Share ε) : Prop := w.inFlight = 0 ∧ ∀ entry ∈ w.spans, entry.1.ended = true

/--
The share of a call: its own span and those of its physical queries, which are
children of it and have ended unless it is open.
-/
def Nested (root : Option Nat) (w : Share ε) : Prop :=
  ∃ own parts parent, w = own + List.sum parts ∧ OneSpan root own ∧
    (∀ part ∈ parts, OneSpan (some parent) part) ∧
      ((∀ part ∈ parts, Closed part) ∨
        own.inFlight = 0 ∧ ∃ record, own.spans = {(record, parent)} ∧ record.ended = false)

theorem nested_of_oneSpan {root : Option Nat} {w : Share ε} (h : OneSpan root w) :
    Nested root w :=
  ⟨w, [], 0, by simp, h, by simp, .inl (by simp)⟩

theorem closed_idle {record : SpanRecord ε} {span : Nat} {points : Multiset Point}
    {logs : Multiset (LogRecord ε)} (hended : record.ended = true) :
    Closed (Share.idle record span points logs) := by
  refine ⟨rfl, ?_⟩
  intro entry hentry
  rw [Multiset.mem_singleton.mp hentry]
  exact hended

theorem Closed.add {w w' : Share ε} (h : Closed w) (h' : Closed w') : Closed (w + w') := by
  refine ⟨by rw [Share.add_inFlight, h.1, h'.1, add_zero], ?_⟩
  intro entry hentry
  rcases Multiset.mem_add.mp hentry with hentry | hentry
  · exact h.2 entry hentry
  · exact h'.2 entry hentry

theorem closed_sum {parts : List (Share ε)} (h : ∀ part ∈ parts, Closed part) :
    Closed parts.sum := by
  induction parts with
  | nil => exact ⟨rfl, by simp⟩
  | cons part parts ih =>
      rw [List.sum_cons]
      exact (h part List.mem_cons_self).add
        (ih fun part' hmem => h part' (List.mem_cons_of_mem _ hmem))

theorem TargetDone.closed {q : TracedQuery ε} {parent : Nat} {mode : RouteMode}
    {t : Target δ τ} {err : Option (GoError ε)} {w : Share ε}
    (h : TargetDone q parent mode t err w) : Closed w := by
  obtain ⟨metadata, -, record, span, duration, logs, -, -, hended, rfl⟩ := h
  exact closed_idle hended

/-- The share of a call that has returned, with the targets that it has queried. -/
def QueryDone (q : TracedQuery ε) (plan : Option (RouteMode × Nat × List (Target δ τ)))
    (err : Option (GoError ε)) (w : Share ε) : Prop :=
  ∃ own parts span, w = own + List.sum parts ∧
    LogicalDone q.telemetry q.ctx.span q.storeName q.queryName q.kind
      (plan.map fun p => (p.1, p.2.1)) err span own ∧
    List.Forall₂ (fun part p => ∃ partErr, TargetDone q span p.1 p.2 partErr part) parts
      ((plan.map fun p => p.2.2.map fun t => (p.1, t)).getD [])

section Calls

variable {q : TracedQuery ε} {s : LogicalQuerySpan ε} {ctx : Context}
  {route : Option (RouteMode × Nat)} {w : Share ε}

theorem TracedQuery.start_follows (q : TracedQuery ε) :
    (q.start : TracedMethod δ τ M R ε _).Follows (TracedUpdate δ τ M R ε) (OneSpan q.ctx.span)
      (fun r w => r.1.span = some r.2.span ∧ q.Open none r.2 w) 0 :=
  startLogicalQuerySpan_follows

/-- The span of a call ends beside the physical ones, which have ended already. -/
theorem finish_beside {α : Type} (result : α × Option (GoError ε)) {parts : List (Share ε)}
    (hopen : q.Open route s w)
    (hparts : ∀ part ∈ parts, OneSpan (some s.span) part ∧ Closed part) :
    (do
      s.finish result.2
      return result : TracedMethod δ τ M R ε (α × Option (GoError ε))).Follows
      (TracedUpdate δ τ M R ε) (Nested q.ctx.span)
      (fun result' v => ∃ own, v = own + parts.sum ∧ result' = result ∧
        LogicalDone q.telemetry q.ctx.span q.storeName q.queryName q.kind route result.2
          s.span own) (w + parts.sum) := by
  have hfinish : (do
      s.finish result.2
      return result : TracedMethod δ τ M R ε (α × Option (GoError ε))).Follows
      (TracedUpdate δ τ M R ε) (OneSpan q.ctx.span)
      (fun result' w => result' = result ∧ LogicalDone q.telemetry q.ctx.span q.storeName
        q.queryName q.kind route result.2 s.span w) w := by
    refine hopen.finish_follows.bind ?_
    intro _ w' hone hdone
    exact ⟨hone, rfl, hdone⟩
  have hrest := (closed_sum fun part hmem => (hparts part hmem).2).1
  rw [add_comm]
  refine (hfinish.frame (tracedUpdate_frame hrest)).mono ?_ ?_
  · rintro _ ⟨own, rfl, hone⟩
    exact ⟨own, parts, s.span, add_comm _ _, hone, fun part hmem => (hparts part hmem).1,
      .inl fun part hmem => (hparts part hmem).2⟩
  · rintro result' _ - ⟨own, rfl, -, hresult, hdone⟩
    exact ⟨own, add_comm _ _, hresult, hdone⟩

theorem nested_of_open {part : Share ε} (hopen : q.Open route s w)
    (hpart : OneSpan (some s.span) part) : Nested q.ctx.span (w + part) := by
  obtain ⟨record, rfl, hparent, -, hended⟩ := hopen.share
  refine ⟨.idle record s.span 0 0, [part], s.span, by simp, oneSpan_idle hparent, ?_,
    .inr ⟨rfl, record, rfl, hended⟩⟩
  intro part' hmem
  rw [List.mem_singleton.mp hmem]
  exact hpart

/-- A physical query beside the open span of its logical query. -/
theorem query_beside [Inhabited V] {statement : Statement S V M R ε} {spec : QuerySpec ε}
    {options : CallOptions τ} {copies : Bool} {mode : RouteMode} {t : Target δ τ} {arg : S}
    (hopen : q.Open route s w) (hctx : ctx.span = some s.span) :
    (t.tracedQuery statement spec options copies s ctx mode arg :
      TracedMethod δ τ M R ε (V × Option (GoError ε))).Follows (TracedUpdate δ τ M R ε)
      (Nested q.ctx.span)
      (fun result v => ∃ part, v = w + part ∧ OneSpan (some s.span) part ∧
        TargetDone q s.span mode t result.2 part) w := by
  have hidle : w.inFlight = 0 := by
    obtain ⟨record, rfl, -⟩ := hopen.share
    rfl
  refine ((Target.tracedQuery_follows hopen hctx).beside (tracedUpdate_frame hidle)).mono ?_
    fun _ _ _ h => h
  rintro _ ⟨part, rfl, hpart⟩
  exact nested_of_open hopen hpart

end Calls

/-- The route that a call records and the targets that it queries. -/
def ShardCall.plan (c : ShardCall δ τ M R ε) :
    Option (RouteMode × Nat × List (Target δ τ)) :=
  match c.target with
  | .error _ => none
  | .ok target => some (routeMode c.spec.kind c.options.flags, 1, [target])

theorem ShardCall.program_follows (c : ShardCall δ τ M R ε) :
    c.program.Follows (TracedUpdate δ τ M R ε) (Nested c.query.ctx.span)
      (fun result w => QueryDone c.query c.plan result.2 w) 0 := by
  let := c.inhabited
  refine (c.query.start_follows.mono (fun _ => nested_of_oneSpan) fun _ _ _ h => h).bind ?_
  rintro ⟨ctx, s⟩ w - ⟨hctx, hopen⟩
  unfold ShardCall.plan
  cases c.target with
  | error err =>
      refine (hopen.finish_follows.mono (fun _ => nested_of_oneSpan) fun _ _ _ h => h).bind ?_
      intro _ own hnested hdone
      exact ⟨hnested, own, [], s.span, by simp, hdone, .nil⟩
  | ok target =>
      refine (hopen.setRoute_follows.mono (fun _ => nested_of_oneSpan) fun _ _ _ h => h).bind ?_
      rintro s' w' - ⟨hspan, hopen'⟩
      refine (query_beside hopen' (hctx.trans (by rw [hspan]))).bind ?_
      rintro result _ - ⟨part, rfl, hpart, hdone⟩
      have hparts : ∀ part' ∈ [part], OneSpan (some s'.span) part' ∧ Closed part' := by
        simpa using ⟨hpart, hdone.closed⟩
      have hfinish := finish_beside (δ := δ) (τ := τ) (M := M) (R := R) result hopen' hparts
      rw [List.sum_singleton] at hfinish
      refine hfinish.mono (fun _ h => h) ?_
      rintro _ _ - ⟨own, rfl, rfl, hlogical⟩
      exact ⟨own, [part], s'.span, by simp, hlogical, .cons ⟨_, hdone⟩ .nil⟩

/-! ## Calls over several replica sets -/

section FanOut

variable {q : TracedQuery ε} {s : LogicalQuerySpan ε} {ctx : Context}
  {route : Option (RouteMode × Nat)} {w : Share ε}

theorem nested_of_parts {parts : List (Share ε)} (hopen : q.Open route s w)
    (hparts : ∀ part ∈ parts, OneSpan (some s.span) part) :
    Nested q.ctx.span (w + parts.sum) := by
  obtain ⟨record, rfl, hparent, -, hended⟩ := hopen.share
  exact ⟨_, parts, s.span, rfl, oneSpan_idle hparent, hparts, .inr ⟨rfl, record, rfl, hended⟩⟩

/-- What is shown of the goroutine for one target. -/
def targetSpec (q : TracedQuery ε) (parent : Nat) (mode : RouteMode) (t : Target δ τ) :
    GoroutineSpec (Share ε) (V × Option (GoError ε)) :=
  ⟨OneSpan (some parent), fun result part => TargetDone q parent mode t result.2 part⟩

theorem forks_targets [Inhabited V] {α : Type} {statement : Statement S V M R ε}
    {spec : QuerySpec ε} {options : CallOptions τ} {copies : Bool} {mode : RouteMode}
    {replicaSetCount : Nat} {targets : List (Target δ τ × S)}
    {join : List (Nat × V × Option (GoError ε)) → α × Option (GoError ε)}
    (hopen : q.Open (some (mode, replicaSetCount)) s w) (hctx : ctx.span = some s.span) :
    Forks (TracedUpdate δ τ M R ε) (Nested q.ctx.span)
      (fun result w => QueryDone q (some (mode, replicaSetCount, targets.map Prod.fst))
        result.2 w)
      (targets.map fun target =>
        target.1.tracedQuery statement spec options copies s ctx mode target.2)
      (fun completions => do
        s.finish (join completions).2
        return join completions) w := by
  refine ⟨targets.map fun target => targetSpec q s.span mode target.1, ?_, ?_, ?_⟩
  · rw [List.forall₂_map_left_iff, List.forall₂_map_right_iff]
    exact List.forall₂_same.mpr fun target _ => Target.tracedQuery_follows hopen hctx
  · intro shares hshares
    refine nested_of_parts hopen fun part hpart => ?_
    obtain ⟨spec, hspec, hinv⟩ := exists_of_mem_right hshares hpart
    obtain ⟨target, -, rfl⟩ := List.mem_map.mp hspec
    exact hinv
  · intro completions shares hshares
    have hparts : ∀ part ∈ shares, OneSpan (some s.span) part ∧ Closed part := by
      intro part hpart
      obtain ⟨spec, hspec, hinv, result, hdone⟩ := exists_of_mem_right hshares hpart
      obtain ⟨target, -, rfl⟩ := List.mem_map.mp hspec
      exact ⟨hinv, hdone.closed⟩
    refine (finish_beside (join completions) hopen hparts).mono (fun _ h => h) ?_
    rintro _ _ - ⟨own, rfl, rfl, hlogical⟩
    refine ⟨own, shares, s.span, rfl, hlogical, ?_⟩
    rw [Option.map_some, Option.getD_some, List.map_map, List.forall₂_map_right_iff]
    rw [List.forall₂_map_left_iff] at hshares
    refine hshares.flip.imp ?_
    rintro part target ⟨-, result, hdone⟩
    exact ⟨result.2, hdone⟩

end FanOut

def FanOutCall.planned (c : FanOutCall δ τ M R ε) :
    Option (RouteMode × Nat × List (Target δ τ)) :=
  c.plan.map fun plan => (plan.mode, plan.replicaSetCount, plan.targets.map Prod.fst)

theorem FanOutCall.forkJoin_follows (c : FanOutCall δ τ M R ε) :
    c.forkJoin.Follows (TracedUpdate δ τ M R ε) (Nested c.query.ctx.span)
      (fun result w => QueryDone c.query c.planned result.2 w) := by
  obtain ⟨S, V, α, inhabited, q, spec, statement, options, copies, plan, join⟩ := c
  refine (q.start_follows.mono (fun _ => nested_of_oneSpan) fun _ _ _ h => h).bind ?_
  rintro ⟨ctx, s⟩ w hnested ⟨hctx, hopen⟩
  cases plan with
  | none =>
      -- The method returns with the error of an input, and starts no goroutine.
      refine ⟨hnested, [], .nil, ?_, ?_⟩
      · intro shares hshares
        cases hshares
        simpa using hnested
      · intro completions shares hshares
        cases hshares
        rw [List.sum_nil, add_zero]
        refine (hopen.finish_follows.mono (fun _ => nested_of_oneSpan) fun _ _ _ h => h).bind ?_
        intro _ own hown hdone
        exact ⟨hown, own, [], s.span, by simp, hdone, .nil⟩
  | some plan =>
      refine (hopen.setRoute_follows.mono (fun _ => nested_of_oneSpan) fun _ _ _ h => h).bind ?_
      rintro s' w' hnested' ⟨hspan, hopen'⟩
      exact ⟨hnested', forks_targets hopen' (hctx.trans (by rw [hspan]))⟩

/-! ## The other calls -/

theorem await_follows {q : TracedQuery ε} {route : Option (RouteMode × Nat)}
    {s : LogicalQuerySpan ε} {w : Share ε} (hopen : q.Open route s w) :
    (do
      let err ← ask .wait
      s.finish err
      return err : TracedMethod δ τ M R ε (Option (GoError ε))).Follows
      (TracedUpdate δ τ M R ε) (OneSpan q.ctx.span)
      (fun err w => ∃ span, LogicalDone q.telemetry q.ctx.span q.storeName q.queryName q.kind
        route err span w) w := by
  have hone : OneSpan q.ctx.span w := by
    obtain ⟨record, rfl, hparent, -⟩ := hopen.share
    exact oneSpan_idle hparent
  refine ⟨hone, fun err => ⟨w, .other _ trivial, ?_⟩⟩
  refine hopen.finish_follows.bind ?_
  intro _ w' hone' hdone
  exact ⟨hone', s.span, hdone⟩

theorem CopyAsyncCall.oneSpan_follows (c : CopyAsyncCall ε) :
    (c.program : TracedMethod δ τ M R ε _).Follows (TracedUpdate δ τ M R ε)
      (OneSpan c.query.ctx.span)
      (fun err w => ∃ span, LogicalDone c.query.telemetry c.query.ctx.span c.query.storeName
        c.query.queryName c.query.kind (c.groups.map fun groups => (.primary, groups)) err
        span w) 0 := by
  obtain ⟨q, groups⟩ := c
  refine q.start_follows.bind ?_
  rintro ⟨ctx, s⟩ w - ⟨-, hopen⟩
  cases groups with
  | none => exact await_follows hopen
  | some groups =>
      refine hopen.setRoute_follows.bind ?_
      rintro s' w' - ⟨-, hopen'⟩
      exact await_follows hopen'

theorem CopyAsyncCall.program_follows (c : CopyAsyncCall ε) :
    (c.program : TracedMethod δ τ M R ε _).Follows (TracedUpdate δ τ M R ε)
      (Nested c.query.ctx.span)
      (fun err w => QueryDone (δ := δ) (τ := τ) c.query
        (c.groups.map fun groups => (.primary, groups, [])) err w) 0 := by
  refine c.oneSpan_follows.mono (fun _ => nested_of_oneSpan) ?_
  rintro err w - ⟨span, hdone⟩
  obtain ⟨q, groups⟩ := c
  cases groups with
  | none => exact ⟨w, [], span, by simp, hdone, .nil⟩
  | some groups => exact ⟨w, [], span, by simp, hdone, .nil⟩

theorem CopyBatchCall.program_follows (c : CopyBatchCall δ τ M R ε) :
    c.program.Follows (TracedUpdate δ τ M R ε) (Nested c.query.ctx.span)
      (fun result w => PhysicalDone c.query.telemetry c.query.ctx.span c.query.storeName
        c.query.queryName .write c.route.metadata .primary result.2 w) 0 := by
  let := c.inhabited
  exact (physical_follows (c.statement.run_asks _) needs_of_inFlight).mono
    (fun _ => nested_of_oneSpan) fun _ _ _ h => h

theorem wrappedProgram_follows (q : TracedQuery ε) :
    (wrappedProgram q : TracedMethod δ τ M R ε _).Follows (TracedUpdate δ τ M R ε)
      (Nested q.ctx.span)
      (fun err w => StoreDone q.telemetry q.ctx.span q.storeName q.queryName q.kind err w)
      0 := by
  refine Follows.mono (I := OneSpan q.ctx.span) ?_ (fun _ => nested_of_oneSpan)
    fun _ _ _ h => h
  refine startStoreQuerySpan_follows.bind ?_
  rintro ⟨ctx, s⟩ w hone hopen
  refine ⟨hone, fun err => ⟨w, .other _ trivial, ?_⟩⟩
  refine hopen.finish_follows.bind ?_
  intro _ w' hone' hdone
  exact ⟨hone', hdone⟩

/-! ## All calls -/

def TracedCall.root : TracedCall δ τ M R ε → Option Nat
  | .shard call => call.query.ctx.span
  | .fanOut call => call.query.ctx.span
  | .copyAsync call => call.query.ctx.span
  | .copyBatch call => call.query.ctx.span
  | .wrapped q => q.ctx.span

/-- The share of a call that has returned. -/
def TracedCall.Done : (call : TracedCall δ τ M R ε) → call.forkJoin.Result → Share ε → Prop
  | .shard call, result, w => QueryDone call.query call.plan result.2 w
  | .fanOut call, result, w => QueryDone call.query call.planned result.2 w
  | .copyAsync call, err, w => QueryDone (δ := δ) (τ := τ) call.query
      (call.groups.map fun groups => (.primary, groups, [])) err w
  | .copyBatch call, result, w => PhysicalDone call.query.telemetry call.query.ctx.span
      call.query.storeName call.query.queryName .write call.route.metadata .primary result.2 w
  | .wrapped q, err, w =>
      StoreDone q.telemetry q.ctx.span q.storeName q.queryName q.kind err w

theorem TracedCall.follows (call : TracedCall δ τ M R ε) :
    call.forkJoin.Follows (TracedUpdate δ τ M R ε) (Nested call.root) call.Done := by
  cases call with
  | shard call => exact ForkJoin.sequential_follows call.program_follows
  | fanOut call => exact call.forkJoin_follows
  | copyAsync call => exact ForkJoin.sequential_follows call.program_follows
  | copyBatch call => exact ForkJoin.sequential_follows call.program_follows
  | wrapped q => exact ForkJoin.sequential_follows (wrappedProgram_follows q)

end PgMesh.Store
