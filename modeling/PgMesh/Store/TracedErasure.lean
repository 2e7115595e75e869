import PgMesh.Foundation.Goroutines
import PgMesh.Store.Dispatch
import PgMesh.Store.TracedRuns

/-!
# Calls without their telemetry

A traced call over several replica sets does to the databases what the call
without telemetry does, and returns what that returns.
-/

namespace PgMesh.Store

open PgMesh.Foundation
open PgMesh.Topology
open PgMesh.Telemetry

variable {δ τ S V M R ε κ A : Type}

/-- The second program is the first one without its telemetry. -/
inductive Erases {α : Type} (statement : Statement S V M R ε) :
    TracedMethod δ τ M R ε α → Method δ τ S V ε α → Prop
  | done (value : α) : Erases statement (.done value) (.done value)
  | silent {operation : Operation ε} {next : operation.Answer → TracedMethod δ τ M R ε α}
      {p : Method δ τ S V ε α} : (∀ answer, Erases statement (next answer) p) →
        Erases statement (.ask (.inl operation) next) p
  | span {operation : Operation ε} {next : operation.Answer → TracedMethod δ τ M R ε α}
      {metadata : RouteMetadata} {mode : RouteMode} {p : Unit → Method δ τ S V ε α} :
      (∀ answer, Erases statement (next answer) (p ())) →
        Erases statement (.ask (.inl operation) next)
          (.ask (.startPhysicalQuerySpan metadata mode) p)
  | add {counter : Nat} {next : UInt64 → TracedMethod δ τ M R ε α}
      {p : UInt64 → Method δ τ S V ε α} :
      (∀ added, Erases statement (next added) (p added)) →
        Erases statement (.ask (.inr (.add counter)) next) (.ask (.add counter) p)
  | execute {queries : Queries δ τ} {arg : S} {next : R → TracedMethod δ τ M R ε α}
      {p : V × Option (GoError ε) → Method δ τ S V ε α} :
      (∀ rows, Erases statement (next rows) (p (statement.scan rows))) →
        Erases statement (.ask (.inr (.execute queries (statement.send arg))) next)
          (.ask (.execute queries arg) p)

/-- A request of telemetry. -/
def Untold (request : Operation ε ⊕ StoreRequest δ τ M) : Prop := request.isLeft = true

namespace Erases

variable {α β : Type} {statement : Statement S V M R ε}

theorem bind {t : TracedMethod δ τ M R ε α} {p : Method δ τ S V ε α}
    {f : α → TracedMethod δ τ M R ε β} {g : α → Method δ τ S V ε β}
    (h : Erases statement t p) (hf : ∀ value, Erases statement (f value) (g value)) :
    Erases statement (t.bind f) (p.bind g) := by
  induction h with
  | done value => exact hf value
  | silent _ ih => exact .silent fun answer => ih answer
  | span _ ih => exact .span fun answer => ih answer
  | add _ ih => exact .add fun added => ih added
  | execute _ ih => exact .execute fun rows => ih rows

theorem bind_untold {t : TracedMethod δ τ M R ε α} {f : α → TracedMethod δ τ M R ε β}
    {p : Method δ τ S V ε β} (ht : t.Asks Untold)
    (hf : ∀ value, Erases statement (f value) p) : Erases statement (t.bind f) p := by
  induction t with
  | done value => exact hf value
  | ask request next ih =>
      cases request with
      | inl operation => exact .silent fun answer => ih answer (ht.2 answer)
      | inr request => cases ht.1

theorem run {method : Method δ τ S V ε α} (h : method.Asks Request.Silent) :
    Erases statement (statement.run method) method := by
  induction method with
  | done value => exact .done value
  | ask request next ih =>
      cases request with
      | add counter => exact .add fun added => ih added (h.2 added)
      | startPhysicalQuerySpan metadata mode => cases h.1
      | execute queries arg => exact .execute fun rows => ih _ (h.2 _)

theorem bind_done {t : TracedMethod δ τ M R ε α} {p : Method δ τ S V ε α}
    {f : α → TracedMethod δ τ M R ε α} (h : Erases statement t p)
    (hf : ∀ value, Erases statement (f value) (.done value)) :
    Erases statement (t.bind f) p := by
  induction h with
  | done value => exact hf value
  | silent _ ih => exact .silent ih
  | span _ ih => exact .span ih
  | add _ ih => exact .add ih
  | execute _ ih => exact .execute ih

end Erases

/-! ## Telemetry -/

section Untold

variable {err : Option (GoError ε)}

theorem perform_untold (operation : Operation ε) :
    (perform operation : TracedMethod δ τ M R ε _).Asks Untold :=
  ⟨rfl, fun _ => trivial⟩

theorem recordFailure_untold (m : MeshTelemetry ε) (span : Nat) :
    (recordFailure m span err : TracedMethod δ τ M R ε Unit).Asks Untold := by
  cases err with
  | none => trivial
  | some err =>
      exact (perform_untold _).bind fun _ => (perform_untold _).bind fun _ => perform_untold _

theorem logCompleted_untold (m : MeshTelemetry ε) (message : String)
    (logAttributes : List (String × LogValue ε)) (duration : Int) :
    (logCompleted m message logAttributes duration err : TracedMethod δ τ M R ε Unit).Asks
      Untold := by
  unfold logCompleted
  cases m.hasLogger with
  | false => trivial
  | true =>
      refine (perform_untold _).bind fun enabled => ?_
      cases (enabled : Bool) with
      | false => trivial
      | true => exact perform_untold _

theorem physical_finish_untold (s : PhysicalQuerySpan ε) :
    (s.finish err : TracedMethod δ τ M R ε Unit).Asks Untold :=
  (perform_untold _).bind fun _ => (perform_untold _).bind fun _ =>
    (recordFailure_untold _ _).bind fun _ => (perform_untold _).bind fun _ =>
      (logCompleted_untold _ _ _ _).bind fun _ => perform_untold _

theorem logical_finish_untold (s : LogicalQuerySpan ε) :
    (s.finish err : TracedMethod δ τ M R ε Unit).Asks Untold :=
  (perform_untold _).bind fun _ => (recordFailure_untold _ _).bind fun _ =>
    (perform_untold _).bind fun _ => (logCompleted_untold _ _ _ _).bind fun _ =>
      perform_untold _

theorem start_untold (q : TracedQuery ε) :
    (q.start : TracedMethod δ τ M R ε _).Asks Untold := by
  have hmark : (markExecuted q.telemetry q.ctx : TracedMethod δ τ M R ε Unit).Asks Untold := by
    unfold markExecuted
    cases q.ctx.execution with
    | none => trivial
    | some execution =>
        by_cases howner : execution.owner = q.telemetry.mesh
        · simp only [howner]
          exact perform_untold _
        · simp only [howner]
          trivial
  exact hmark.bind fun _ => (perform_untold _).bind fun _ => (perform_untold _).bind
    fun _ => trivial

end Untold

/-! ## Targets -/

section Targets

variable {statement : Statement S V M R ε} {s : LogicalQuerySpan ε} {ctx : Context}

theorem physicalQuery_erases {metadata metadata' : RouteMetadata} {mode mode' : RouteMode}
    {call : TracedMethod δ τ M R ε (V × Option (GoError ε))}
    {p : Method δ τ S V ε (V × Option (GoError ε))} (h : Erases statement call p) :
    Erases statement (physicalQuery s ctx metadata mode call)
      (Target.span true metadata' mode' p) := by
  refine .span fun span => .silent fun _ => .silent fun started => ?_
  refine h.bind_done fun result => ?_
  exact .bind_untold (physical_finish_untold _) fun _ => .done result

variable [Inhabited V] {spec : QuerySpec ε} {options : CallOptions τ} {mode : RouteMode}
  {t : Target δ τ} {arg : S}

theorem Target.tracedWrite_erases :
    Erases statement (t.tracedWrite statement spec options s ctx mode arg)
      (t.write spec options true arg) := by
  unfold Target.tracedWrite Target.write
  cases options.tx with
  | none => exact physicalQuery_erases (.run (QueryStore.call_silent _))
  | some tx => exact physicalQuery_erases (.run (QueryStore.call_silent _))

theorem ReadQueries.call_silent (q : ReadQueries δ τ) :
    (q.call (V := V) spec arg).Asks Request.Silent :=
  ReadQueries.call_asks rfl

theorem Target.tracedRead_erases :
    Erases statement (t.tracedRead statement spec options s ctx mode arg)
      (t.read spec options true arg) := by
  unfold Target.tracedRead Target.read
  cases options.tx with
  | some tx => exact tracedWrite_erases
  | none =>
      cases options.primary with
      | true => exact tracedWrite_erases
      | false =>
          exact .add fun added => physicalQuery_erases (.run (ReadQueries.call_silent _))

theorem Target.tracedQuery_erases :
    Erases statement (t.tracedQuery statement spec options false s ctx mode arg)
      (t.query spec options true arg) := by
  unfold Target.tracedQuery Target.query
  cases spec.kind with
  | read => exact tracedRead_erases
  | write => exact tracedWrite_erases

theorem targets_erase {copies : Bool} (targets : List (Target δ τ × S)) :
    List.Forall₂ (Erases statement)
      (targets.map fun target =>
        target.1.tracedQuery statement spec options copies s ctx mode target.2)
      (targets.map fun target =>
        if copies then target.1.write spec options true target.2
        else target.1.query spec options true target.2) := by
  rw [List.forall₂_map_left_iff, List.forall₂_map_right_iff]
  refine List.forall₂_same.mpr fun target _ => ?_
  cases copies with
  | false => exact Target.tracedQuery_erases
  | true => exact Target.tracedWrite_erases

end Targets

/-! ## Runs -/

/-- A statement of a traced call is this event of the call without telemetry. -/
def Sends (statement : Statement S V M R ε) (entry : Queries δ τ × M × R)
    (event : MethodEvent δ τ S V ε) : Prop :=
  ∃ arg, entry.2.1 = statement.send arg ∧
    event = ⟨.execute entry.1 arg, statement.scan entry.2.2⟩

def Request.isExecute : Request δ τ S → Bool
  | .execute _ _ => true
  | _ => false

/-- The statements among the events of a pool. -/
def executed (trace : List (Nat × MethodEvent δ τ S V ε)) : List (MethodEvent δ τ S V ε) :=
  (trace.map Prod.snd).filter fun event => event.request.isExecute

theorem executed_append (trace trace' : List (Nat × MethodEvent δ τ S V ε)) :
    executed (trace ++ trace') = executed trace ++ executed trace' := by
  simp [executed]

/-- A request of a traced program is telemetry, or a request of the other one. -/
inductive ErasesStep {α : Type} (statement : Statement S V M R ε)
    (p p' : Method δ τ S V ε α) (s s' : TracedState δ τ M R ε) : Prop
  | untold : p' = p → s'.cursors = s.cursors → s'.sent = s.sent → ErasesStep statement p p' s s'
  | told {request : Request δ τ S} {next : Answer V ε request → Method δ τ S V ε α}
      {answer : Answer V ε request} {own : List (Queries δ τ × M × R)} :
      p = .ask request next → p' = next answer →
      Serve s.cursors ⟨request, answer⟩ s'.cursors → s'.sent = s.sent ++ own →
      (∀ i, List.Forall₂ (Sends statement) own (executed [(i, ⟨request, answer⟩)])) →
        ErasesStep statement p p' s s'

theorem Erases.step {α : Type} {statement : Statement S V M R ε}
    {request : Operation ε ⊕ StoreRequest δ τ M}
    {next : Sum.elim Operation.Answer (StoreRequest.Answer R ε) request →
      TracedMethod δ τ M R ε α} {p : Method δ τ S V ε α}
    (h : Erases statement (.ask request next) p)
    {answer : Sum.elim Operation.Answer (StoreRequest.Answer R ε) request}
    {s s' : TracedState δ τ M R ε} (hserve : TracedServe s ⟨request, answer⟩ s') :
    ∃ p', Erases statement (next answer) p' ∧ ErasesStep statement p p' s s' := by
  cases h with
  | silent hnext =>
      cases hserve with
      | perform _ => exact ⟨p, hnext answer, .untold rfl rfl rfl⟩
  | span hnext =>
      cases hserve with
      | perform _ =>
          exact ⟨_, hnext answer, .told rfl rfl (.startPhysicalQuerySpan ..)
            (List.append_nil _).symm fun _ => .nil⟩
  | add hnext =>
      cases hserve with
      | add counter =>
          exact ⟨_, hnext _, .told rfl rfl (.add ..) (List.append_nil _).symm fun _ => .nil⟩
  | @execute queries arg _ _ hnext =>
      cases hserve with
      | execute =>
          exact ⟨_, hnext answer, .told rfl rfl (.execute ..) rfl
            fun _ => .cons ⟨arg, rfl, rfl⟩ .nil⟩

/-- The program makes no request but telemetry, and ends with this value. -/
def Ends {α : Type} (value : α) : TracedMethod δ τ M R ε α → Prop
  | .done result => result = value
  | .ask request next => Untold request ∧ ∀ answer, Ends value (next answer)

theorem ends_bind {α β : Type} {value : β} {t : TracedMethod δ τ M R ε α}
    {f : α → TracedMethod δ τ M R ε β} (ht : t.Asks Untold) (hf : ∀ a, Ends value (f a)) :
    Ends value (t.bind f) := by
  induction t with
  | done a => exact hf a
  | ask request next ih => exact ⟨ht.1, fun answer => ih answer (ht.2 answer)⟩

section FanOut

variable {call : TracedForkJoin δ τ M R ε} {statement : Statement S V M R ε}
  {goroutines : List (Method δ τ S V ε call.Part)}
  {join : List (Nat × call.Part) → call.Result} {s₀ s s' : TracedState δ τ M R ε}
  {phase phase' : call.Phase} {pool : Pool Cursors (Request δ τ S) (Answer V ε) call.Part}

/-- The call, without telemetry, starts these goroutines and returns what `join` says. -/
structure Traces (call : TracedForkJoin δ τ M R ε) (statement : Statement S V M R ε)
    (goroutines : List (Method δ τ S V ε call.Part))
    (join : List (Nat × call.Part) → call.Result) : Prop where
  before : call.before.Asks Untold
  goroutines : ∀ locals,
    List.Forall₂ (Erases statement) (call.goroutines locals) goroutines
  after : ∀ locals completions, Ends (join completions) (call.after locals completions)

def PhaseErases (statement : Statement S V M R ε)
    (goroutines : List (Method δ τ S V ε call.Part))
    (join : List (Nat × call.Part) → call.Result)
    (pool : Pool Cursors (Request δ τ S) (Answer V ε) call.Part) : call.Phase → Prop
  | .before p => p.Asks Untold ∧ pool.running = goroutines.map some ∧ pool.completions = []
  | .forked _ running completions =>
      List.Forall₂ (Option.Rel (Erases statement)) running pool.running ∧
        completions = pool.completions
  | .after p => pool.Finished ∧ Ends (join pool.completions) p
  | .returned result => pool.Finished ∧ result = join pool.completions

/-- The call and the pool of the call without telemetry have done the same. -/
structure Simulates (statement : Statement S V M R ε)
    (goroutines : List (Method δ τ S V ε call.Part))
    (join : List (Nat × call.Part) → call.Result) (s₀ s : TracedState δ τ M R ε)
    (phase : call.Phase) (pool : Pool Cursors (Request δ τ S) (Answer V ε) call.Part) :
    Prop where
  reaches : Pool.Reaches Serve (Pool.start s₀.cursors goroutines) pool
  cursors : pool.state = s.cursors
  sent : ∃ own, s.sent = s₀.sent ++ own ∧
    List.Forall₂ (Sends statement) own (executed pool.trace)
  phase : PhaseErases statement goroutines join pool phase

theorem serve_untold {request : Operation ε ⊕ StoreRequest δ τ M}
    {answer : Sum.elim Operation.Answer (StoreRequest.Answer R ε) request}
    (h : TracedServe s ⟨request, answer⟩ s') (huntold : Untold request) :
    s'.cursors = s.cursors ∧ s'.sent = s.sent := by
  cases h with
  | perform _ => exact ⟨rfl, rfl⟩
  | add => cases huntold
  | execute => cases huntold
  | wait => cases huntold

namespace Simulates

/-- A step of telemetry. -/
theorem untold (h : Simulates statement goroutines join s₀ s phase pool)
    (hcursors : s'.cursors = s.cursors) (hsent : s'.sent = s.sent)
    (hphase : PhaseErases statement goroutines join pool phase') :
    Simulates statement goroutines join s₀ s' phase' pool := by
  refine ⟨h.reaches, h.cursors.trans hcursors.symm, ?_, hphase⟩
  rw [hsent]
  exact h.sent

theorem silent (htraces : Traces call statement goroutines join)
    (h : Simulates statement goroutines join s₀ s phase pool)
    (hstep : call.Step phase none phase') :
    ∃ pool', Simulates statement goroutines join s₀ s phase' pool' := by
  have hphase := h.phase
  cases hstep with
  | fork locals =>
      obtain ⟨-, hrunning, hcompletions⟩ := hphase
      refine ⟨pool, h.untold rfl rfl ⟨?_, hcompletions.symm⟩⟩
      rw [hrunning, List.forall₂_map_left_iff, List.forall₂_map_right_iff]
      exact (htraces.goroutines locals).imp fun _ _ herases => .some herases
  | finish locals left right value completions =>
      obtain ⟨hrunning, rfl⟩ := hphase
      obtain ⟨left', slot, right', hpool, hleft, hslot, hright⟩ := forall₂_append_cons hrunning
      cases hslot with
      | some herases =>
          cases herases
          have hget : pool.running[left'.length]? = some (some (.done value)) := by
            rw [hpool]
            simp
          refine ⟨_, h.reaches.tail (.finish hget), h.cursors, h.sent, ?_, ?_⟩
          · rw [hpool, set_split]
            exact List.rel_append hleft (.cons .none hright)
          · rw [hleft.length_eq]
  | join locals running completions hnone =>
      obtain ⟨hrunning, rfl⟩ := hphase
      refine ⟨pool, h.untold rfl rfl ⟨?_, htraces.after _ _⟩⟩
      intro slot hslot
      obtain ⟨slot', hslot', hrel⟩ := exists_of_mem_right hrunning hslot
      rw [hnone slot' hslot'] at hrel
      cases hrel
      rfl
  | «return» value => exact ⟨pool, h.untold rfl rfl hphase⟩

theorem request (h : Simulates statement goroutines join s₀ s phase pool)
    {event : TracedEvent δ τ M R ε} (hstep : call.Step phase (some event) phase')
    (hserve : TracedServe s event s') :
    ∃ pool', Simulates statement goroutines join s₀ s' phase' pool' := by
  have hphase := h.phase
  cases hstep with
  | before q next answer =>
      obtain ⟨hasks, hrest⟩ := hphase
      obtain ⟨hcursors, hsent⟩ := serve_untold hserve hasks.1
      exact ⟨pool, h.untold hcursors hsent ⟨hasks.2 answer, hrest⟩⟩
  | goroutine locals left right q next answer completions =>
      obtain ⟨hrunning, rfl⟩ := hphase
      obtain ⟨left', slot, right', hpool, hleft, hslot, hright⟩ := forall₂_append_cons hrunning
      cases hslot with
      | @some _ p herases =>
          obtain ⟨p', herases', hstep⟩ := herases.step hserve
          have hrunning' : List.Forall₂ (Option.Rel (Erases statement))
              (left ++ some (next answer) :: right) (left' ++ some p' :: right') :=
            List.rel_append hleft (.cons (.some herases') hright)
          cases hstep with
          | untold hp hcursors hsent =>
              subst hp
              exact ⟨pool, h.untold hcursors hsent ⟨hpool ▸ hrunning', rfl⟩⟩
          | @told request k plainAnswer own hp hp' hplain hsent hown =>
              subst hp hp'
              have hget : pool.running[left'.length]? = some (some (.ask request k)) := by
                rw [hpool]
                simp
              rw [← h.cursors] at hplain
              obtain ⟨before, hbefore, hsends⟩ := h.sent
              refine ⟨_, h.reaches.tail (.ask hget hplain), rfl, ⟨before ++ own, ?_, ?_⟩, ?_,
                rfl⟩
              · rw [hsent, hbefore, List.append_assoc]
              · rw [executed_append]
                exact List.rel_append hsends (hown _)
              · rw [hpool, set_split]
                exact hrunning'
  | after q next answer =>
      obtain ⟨hfinished, huntold, hnext⟩ := hphase
      obtain ⟨hcursors, hsent⟩ := serve_untold hserve huntold
      exact ⟨pool, h.untold hcursors hsent ⟨hfinished, hnext answer⟩⟩

theorem reaches_alone (htraces : Traces call statement goroutines join)
    {x y : TracedState δ τ M R ε × call.Phase}
    (h : Simulates statement goroutines join s₀ x.1 x.2 pool)
    (hreaches : Relation.ReflTransGen (call.Alone TracedServe) x y) :
    ∃ pool', Simulates statement goroutines join s₀ y.1 y.2 pool' := by
  induction hreaches with
  | refl => exact ⟨pool, h⟩
  | tail _ hstep ih =>
      obtain ⟨pool', h'⟩ := ih
      cases hstep with
      | silent state hstep => exact h'.silent htraces hstep
      | request hstep hserve => exact h'.request hstep hserve

end Simulates

end FanOut

/-! ## The generated methods -/

/-- The goroutines of a call without telemetry. -/
def FanOutCall.plainGoroutines (c : FanOutCall δ τ M R ε) :
    List (Method δ τ c.S c.V ε (c.V × Option (GoError ε))) :=
  haveI := c.inhabited
  match c.plan with
  | none => []
  | some plan => plan.targets.map fun target =>
      if c.copies then target.1.write c.spec c.options true target.2
      else target.1.query c.spec c.options true target.2

theorem FanOutCall.traces (c : FanOutCall δ τ M R ε) :
    Traces c.forkJoin c.statement c.plainGoroutines c.join where
  before := by
    refine (start_untold c.query).bind ?_
    rintro ⟨ctx, s⟩
    cases c.plan with
    | none => trivial
    | some plan =>
        exact Program.Asks.bind ((perform_untold _).bind fun _ => trivial) fun _ => trivial
  goroutines := by
    rintro ⟨ctx, s⟩
    obtain ⟨S, V, α, inhabited, q, spec, statement, options, copies, plan, join⟩ := c
    cases plan with
    | none => exact .nil
    | some plan => exact targets_erase plan.targets
  after := by
    rintro ⟨ctx, s⟩ completions
    exact ends_bind (logical_finish_untold s) fun _ => rfl

theorem FanOutCall.traces_of {c : FanOutCall δ τ M R ε}
    {goroutines : List (Method δ τ c.S c.V ε (c.V × Option (GoError ε)))}
    (h : c.plainGoroutines = goroutines) :
    Traces c.forkJoin c.statement goroutines c.join :=
  h ▸ c.traces

section Generated

variable [Inhabited κ] {telemetry : MeshTelemetry ε} {ctx : Context} {storeName : String}
  {storeOptions : List (Option (QueryOption τ))} {errors : MirrorErrors ε}

theorem groupPlan_targets {kind : QueryKind} {options : CallOptions τ}
    {targets : List (Target δ τ × S)} :
    (groupPlan kind options targets).targets =
      if options.flags.tx && decide (targets.length > 1) then [] else targets := by
  unfold groupPlan CallOptions.flags
  split <;> rfl

theorem tracedMany_plain {Item Lookup K Row : Type} [GoAny K]
    (s : MeshStore (QueryReplicaSet δ τ) κ A) (q : ManyQuery Item Lookup K A Row)
    (statement : Statement (List Lookup) (List Row) M R ε) (arg : List (Option Item)) :
    (tracedMany telemetry ctx storeName s q errors statement arg
      storeOptions).plainGoroutines = (queryMany s q errors arg storeOptions).goroutines := by
  unfold FanOutCall.plainGoroutines tracedMany queryMany manyPlan
  cases groupLookups (ε := ε) s q [] [] arg.zipIdx with
  | error err => rfl
  | ok grouped =>
      simp only [groupPlan_targets, List.length_map, Bool.false_eq_true, if_false]
      cases (applyQueryOptions storeOptions).flags.tx &&
        decide ((populated s.mesh grouped.1).length > 1) with
      | true => rfl
      | false => exact List.map_map

theorem tracedCopy_plain {Item α : Type} (s : MeshStore (QueryReplicaSet δ τ) κ A)
    (q : CopyQuery Item A α) (kind : QueryKind) (statement : Statement (List α) Int64 M R ε)
    (arg : List Item) :
    (tracedCopy telemetry ctx storeName s q kind errors statement arg
      storeOptions).plainGoroutines =
      (queryCopy s q kind errors arg storeOptions).goroutines := by
  unfold FanOutCall.plainGoroutines tracedCopy queryCopy copyGroups
  cases groupRows (ε := ε) s q q.methodName [] arg.zipIdx with
  | error err => rfl
  | ok groupsByName =>
      simp only [groupPlan_targets, List.length_map, if_true]
      cases (applyQueryOptions storeOptions).flags.tx &&
        decide ((populated s.mesh groupsByName).length > 1) with
      | true => rfl
      | false => exact List.map_map

omit [Inhabited κ] in
theorem tracedAllShards_plain {Row : Type} (mesh : Mesh (QueryReplicaSet δ τ) κ)
    (q : AllShardsQuery) (statement : Statement S (q.command.Value Row) M R ε) (arg : S) :
    (tracedAllShards telemetry ctx storeName Row mesh q errors statement arg
      storeOptions).plainGoroutines =
      (queryAllShards Row mesh q errors arg storeOptions).goroutines := by
  unfold FanOutCall.plainGoroutines tracedAllShards queryAllShards
  cases htx : (applyQueryOptions storeOptions).tx with
  | none =>
      simp only [htx, Bool.false_eq_true, if_false]
      exact List.map_map
  | some tx =>
      simp only [htx]
      rfl

end Generated

/-- The generated methods over several replica sets, with and without telemetry. -/
inductive GeneratedCall : (c : FanOutCall δ τ M R ε) →
    Call δ τ c.S c.V ε (c.α × Option (GoError ε)) → Prop
  | many {κ A Item Lookup K Row : Type} [Inhabited κ] [GoAny K] (telemetry : MeshTelemetry ε)
      (ctx : Context) (storeName : String) (s : MeshStore (QueryReplicaSet δ τ) κ A)
      (q : ManyQuery Item Lookup K A Row) (errors : MirrorErrors ε)
      (statement : Statement (List Lookup) (List Row) M R ε) (arg : List (Option Item))
      (storeOptions : List (Option (QueryOption τ))) :
      GeneratedCall (tracedMany telemetry ctx storeName s q errors statement arg storeOptions)
        (queryMany s q errors arg storeOptions)
  | copy {κ A Item α : Type} [Inhabited κ] (telemetry : MeshTelemetry ε) (ctx : Context)
      (storeName : String) (s : MeshStore (QueryReplicaSet δ τ) κ A) (q : CopyQuery Item A α)
      (kind : QueryKind) (errors : MirrorErrors ε)
      (statement : Statement (List α) Int64 M R ε) (arg : List Item)
      (storeOptions : List (Option (QueryOption τ))) :
      GeneratedCall
        (tracedCopy telemetry ctx storeName s q kind errors statement arg storeOptions)
        (queryCopy s q kind errors arg storeOptions)
  | allShards {κ S Row : Type} (telemetry : MeshTelemetry ε) (ctx : Context)
      (storeName : String) (mesh : Mesh (QueryReplicaSet δ τ) κ) (q : AllShardsQuery)
      (errors : MirrorErrors ε) (statement : Statement S (q.command.Value Row) M R ε) (arg : S)
      (storeOptions : List (Option (QueryOption τ))) :
      GeneratedCall
        (tracedAllShards telemetry ctx storeName Row mesh q errors statement arg storeOptions)
        (queryAllShards Row mesh q errors arg storeOptions)

theorem GeneratedCall.traces {c : FanOutCall δ τ M R ε}
    {plain : Call δ τ c.S c.V ε (c.α × Option (GoError ε))} (h : GeneratedCall c plain) :
    Traces c.forkJoin c.statement plain.goroutines plain.join := by
  cases h with
  | many telemetry ctx storeName s q errors statement arg storeOptions =>
      exact FanOutCall.traces_of (tracedMany_plain s q statement arg)
  | copy telemetry ctx storeName s q kind errors statement arg storeOptions =>
      exact FanOutCall.traces_of (tracedCopy_plain s q kind statement arg)
  | allShards telemetry ctx storeName mesh q errors statement arg storeOptions =>
      exact FanOutCall.traces_of (tracedAllShards_plain mesh q statement arg)

/--
A run of a generated method with its telemetry is a run of the method without
it, with the same counters, the same statements and answers in the same order,
and the same result.
-/
theorem telemetry_is_transparent {c : FanOutCall δ τ M R ε}
    {plain : Call δ τ c.S c.V ε (c.α × Option (GoError ε))} (hgenerated : GeneratedCall c plain)
    {s₀ s : TracedState δ τ M R ε} {phase : c.forkJoin.Phase}
    (h : Relation.ReflTransGen (c.forkJoin.Alone TracedServe)
      (s₀, .before c.forkJoin.before) (s, phase)) :
    ∃ pool, Pool.Reaches Serve (Pool.start s₀.cursors plain.goroutines) pool ∧
      pool.state = s.cursors ∧
      (∃ own, s.sent = s₀.sent ++ own ∧
        List.Forall₂ (Sends c.statement) own (executed pool.trace)) ∧
      ∀ result, phase = .returned result →
        pool.Finished ∧ result = plain.join pool.completions := by
  have htraces := hgenerated.traces
  have hstart : Simulates c.statement plain.goroutines plain.join s₀ s₀
      (.before c.forkJoin.before) (Pool.start s₀.cursors plain.goroutines) :=
    ⟨.refl, rfl, ⟨[], (List.append_nil _).symm, .nil⟩, htraces.before, rfl, rfl⟩
  obtain ⟨pool, hsimulates⟩ := hstart.reaches_alone htraces h
  refine ⟨pool, hsimulates.reaches, hsimulates.cursors, hsimulates.sent, ?_⟩
  rintro _ rfl
  exact hsimulates.phase

theorem telemetry_is_transparent_two_sites :
    ∃ (s : TracedState Nat Nat Nat Nat Unit) (result : siteTouch.forkJoin.Result)
      (pool : Pool Cursors (Request Nat Nat Nat) (Answer Int64 Unit)
        (Int64 × Option (GoError Unit))),
      s.sent.length = 3 ∧ pool.state = s.cursors ∧ pool.Finished := by
  obtain ⟨s, result, h, hsent⟩ := siteTouch_returns
  obtain ⟨pool, -, hcursors, -, hreturned⟩ :=
    telemetry_is_transparent (.allShards ..) h
  exact ⟨s, result, pool, hsent, hcursors, (hreturned result rfl).1⟩

end PgMesh.Store
