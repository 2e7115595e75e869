import PgMesh.Copy.Futures

/-!
# Capacity and progress

Every critical section that may leave a batch in the queue or free a slot
ends by scheduling, and scheduling stops only when the queue is empty or all
slots are taken.  A batch that is still open has a live timer.  So an
unresolved request is always waiting for a timer or for a running COPY.
-/

namespace PgMesh.Copy

open PgMesh.Foundation

variable {α ε : Type}

namespace Batcher

structure CapacityInv (s : Batcher α ε) : Prop where
  inFlight : s.inFlight = s.flying.length
  limit : s.inFlight ≤ s.config.maxConcurrentBatches
  live : ∀ batch ∈ s.active, Live s.timers batch

theorem initial_capacityInv (config : BatcherConfig) :
    (Batcher.initial config : Batcher α ε).CapacityInv where
  inFlight := rfl
  limit := by
    have := config.concurrent_pos
    simp only [Batcher.initial]
    omega
  live := nofun

/-- The number of running batches, when one goroutine moves on. -/
theorem flying_set {runners : List (Runner α ε)} {i : Nat}
    {old : Runner α ε} (next : Runner α ε) (runner : runners[i]? = some old)
    (hold : old.phase.isExited = false) :
    ((runners.set i next).filter (!·.phase.isExited)).length +
        (if next.phase.isExited then 1 else 0) =
      (runners.filter (!·.phase.isExited)).length := by
  obtain ⟨before, after, rfl, rfl⟩ := exists_split_of_getElem? runner
  rw [set_split]
  cases hnext : next.phase.isExited with
  | true =>
      simp [List.filter_append, hold, hnext]
      omega
  | false =>
      simp [List.filter_append, hold, hnext]

theorem CapacityInv.advance {s s' : Batcher α ε} (h : s.CapacityInv) {i : Nat}
    {old next : Runner α ε} (runner : s.runners[i]? = some old)
    (hold : old.phase.isExited = false) (hnext : next.phase.isExited = false)
    (hrunners : s'.runners = s.runners.set i next)
    (hinFlight : s'.inFlight = s.inFlight) (hconfig : s'.config = s.config)
    (hactive : s'.active = s.active) (htimers : s'.timers = s.timers) :
    s'.CapacityInv := by
  have hcount := flying_set next runner hold
  simp only [hnext, Bool.false_eq_true, if_false, Nat.add_zero] at hcount
  constructor
  · rw [hinFlight, h.inFlight, flying, flying, hrunners, List.length_map,
      List.length_map, hcount]
  · rw [hinFlight, hconfig]
    exact h.limit
  · rw [hactive, htimers]
    exact h.live

theorem CapacityInv.move {s s' : Batcher α ε} (h : s.CapacityInv)
    (hmove : Move s s') : s'.CapacityInv := by
  cases hmove with
  | @extend holder batch timers nextBatch held coalesce nonempty current room =>
      refine ⟨h.inFlight, h.limit, ?_⟩
      rintro _ ⟨⟩
      rcases current with ⟨hactive, rfl, -⟩ | ⟨-, rfl, rfl, -⟩
      · exact h.live batch hactive
      · -- The timer of a new batch is the last one, and it is armed.
        refine ⟨s.timers.length, .armed, rfl, ?_, .inl rfl⟩
        simp [CopyBatch.append]
  | fill =>
      refine ⟨h.inFlight, h.limit, ?_⟩
      rintro _ ⟨⟩
  | detach =>
      refine ⟨h.inFlight, h.limit, ?_⟩
      rintro _ ⟨⟩
  | @schedule batches rest free regroup capacity =>
      refine ⟨?_, capacity h.limit, h.live⟩
      have hstart : (batches.map (Runner.start (ε := ε))).filter
          (!·.phase.isExited) = batches.map Runner.start := by
        apply List.filter_eq_self.mpr
        intro runner hrunner
        obtain ⟨batch, -, rfl⟩ := List.mem_map.mp hrunner
        rfl
      have hinFlight := h.inFlight
      simp only [flying, List.length_map, List.filter_append, List.length_append,
        hstart] at hinFlight ⊢
      omega
  | timer live =>
      exact ⟨h.inFlight, h.limit, fun batch hbatch =>
        live batch hbatch (h.live batch hbatch)⟩
  | copyReturns runner => exact h.advance runner rfl rfl rfl rfl rfl rfl rfl
  | finishPart runner => exact h.advance runner rfl rfl rfl rfl rfl rfl rfl
  | finishLast runner => exact h.advance runner rfl rfl rfl rfl rfl rfl rfl
  | resolve runner => exact h.advance runner rfl rfl rfl rfl rfl rfl rfl
  | @retire i batch outcome completed free runner =>
      have hcount : ((s.runners.set i ⟨batch, outcome, .exited⟩).filter
          (!·.phase.isExited)).length + 1 =
            (s.runners.filter (!·.phase.isExited)).length :=
        flying_set ⟨batch, outcome, .exited⟩ runner rfl
      have hinFlight := h.inFlight
      have hlimit := h.limit
      simp only [flying, List.length_map] at hinFlight
      refine ⟨?_, ?_, h.live⟩
      · simp only [flying, List.length_map]
        omega
      · simp only
        omega
  | _ => exact ⟨h.inFlight, h.limit, h.live⟩

/-! ## The end of a critical section -/

/-- With the lock free, batches wait in the queue only for lack of capacity. -/
def Scheduled (s : Batcher α ε) : Prop :=
  s.lock = none → s.queue ≠ [] → s.config.maxConcurrentBatches ≤ s.inFlight

theorem schedule_scheduled (s : Batcher α ε) : s.schedule.Scheduled := by
  obtain ⟨batches, rest, -, heq, hfull, -⟩ := s.schedule_spec
  rw [heq]
  intro _ hqueue
  exact hfull hqueue

theorem Scheduled.place {s s' : Batcher α ε} (hstep : s.place = some s') :
    s'.Scheduled := by
  intro hfree
  simp only [Batcher.place] at hstep
  split at hstep
  · cases hstep
  · split at hstep
    · cases hstep
    · split at hstep
      · cases hstep
        cases hfree
      · cases hstep
        cases hfree

theorem Scheduled.flushExpiredBatch {s s' : Batcher α ε} {timer : Nat}
    (h : s.Scheduled) (hstep : s.flushExpiredBatch timer = some s') :
    s'.Scheduled := by
  simp only [Batcher.flushExpiredBatch] at hstep
  split at hstep
  · split at hstep
    · cases hstep
      exact h
    · split at hstep
      · cases hstep
        exact h
      · cases hstep
        exact schedule_scheduled _
  · cases hstep

/-- The step leaves the queue and what has been dispatched as they are. -/
structure Quiet (s s' : Batcher α ε) : Prop where
  queue : s'.queue = s.queue
  dispatched : s'.dispatched = s.dispatched
  config : s'.config = s.config
  inFlight : s'.inFlight = s.inFlight
  lock : s'.lock = none → s.lock = none

theorem Quiet.refl (s : Batcher α ε) : Quiet s s := ⟨rfl, rfl, rfl, rfl, id⟩

theorem Scheduled.quiet {s s' : Batcher α ε} (h : s.Scheduled)
    (hquiet : Quiet s s') : s'.Scheduled := by
  intro hfree hqueue
  rw [hquiet.queue] at hqueue
  rw [hquiet.config, hquiet.inFlight]
  exact h (hquiet.lock hfree) hqueue

end Batcher

/-- The labels of the critical sections that end in `scheduleLocked`, and `place`. -/
def Action.queues : Action α ε → Bool
  | .place => true
  | .unlock => true
  | .flushExpiredBatch _ => true
  | .flushAsync _ => true
  | .complete _ => true
  | _ => false

namespace Batcher

theorem quiet_step {s s' : Batcher α ε} {action : Action α ε}
    (haction : action.queues = false) (hstep : s.step action = some s') :
    Quiet s s' := by
  cases action with
  | submit rows coalesce ctxErr ctxErrLocked =>
      obtain ⟨⟨next, reply⟩, hsubmit, rfl⟩ := Option.map_eq_some_iff.mp hstep
      simp only [submit] at hsubmit
      split at hsubmit
      · cases hsubmit
        exact .refl s
      · split at hsubmit
        · cases hsubmit
          exact .refl s
        · cases hsubmit
        · cases hsubmit
          exact .refl s
        · rename_i hlock
          cases hsubmit
          exact ⟨rfl, rfl, rfl, rfl, fun _ => hlock⟩
  | timerFires timer =>
      simp only [Batcher.step, timerFires] at hstep
      split at hstep
      · cases hstep
        exact ⟨rfl, rfl, rfl, rfl, id⟩
      · cases hstep
  | copyReturns runner count err =>
      simp only [Batcher.step, copyReturns] at hstep
      split at hstep
      · rename_i hrunner
        cases hstep
        exact ⟨rfl, map_batch_set hrunner rfl, rfl, rfl, id⟩
      · cases hstep
  | finishPart runner =>
      simp only [Batcher.step, finishPart] at hstep
      split at hstep
      · rename_i hrunner
        split at hstep
        · cases hstep
        · cases hstep
          exact ⟨rfl, map_batch_set hrunner rfl, rfl, rfl, id⟩
      · cases hstep
  | resolve runner =>
      simp only [Batcher.step, resolve] at hstep
      split at hstep
      · rename_i hrunner
        cases hstep
        exact ⟨rfl, map_batch_set hrunner rfl, rfl, rfl, id⟩
      · cases hstep
  | awaitFuture flush =>
      simp only [Batcher.step, awaitFuture] at hstep
      split at hstep
      · split at hstep
        · cases hstep
        · cases hstep
          exact ⟨rfl, rfl, rfl, rfl, id⟩
      · cases hstep
  | flushReturns flush =>
      simp only [Batcher.step, flushReturns] at hstep
      split at hstep
      · cases hstep
        exact ⟨rfl, rfl, rfl, rfl, id⟩
      · cases hstep
  | _ => cases haction

theorem Scheduled.step {s s' : Batcher α ε} {action : Action α ε}
    (h : s.Scheduled) (hstep : s.step action = some s') : s'.Scheduled := by
  cases action with
  | place => exact Scheduled.place hstep
  | unlock =>
      simp only [Batcher.step, unlock] at hstep
      split at hstep
      · cases hstep
      · split at hstep
        · cases hstep
          exact schedule_scheduled _
        · cases hstep
  | flushExpiredBatch timer => exact h.flushExpiredBatch hstep
  | flushAsync order =>
      simp only [Batcher.step, flushAsync] at hstep
      split at hstep
      · cases hstep
      · split at hstep
        · cases hstep
          exact (schedule_scheduled _).quiet ⟨rfl, rfl, rfl, rfl, id⟩
        · cases hstep
  | complete runner =>
      simp only [Batcher.step, complete] at hstep
      split at hstep
      · cases hstep
        exact schedule_scheduled _
      · cases hstep
  | _ => exact h.quiet (quiet_step rfl hstep)

/-! ## Progress -/

/-- An unresolved request has an open part or is about to be resolved. -/
theorem Inv.open_of_unresolved {s : Batcher α ε} (h : s.Inv)
    (free : s.lock = none) {request : Nat}
    (hlt : request < s.accepted.length) (hopen : s.outcome request = none) :
    (∃ batch ∈ s.active, request ∈ batch.requests) ∨ s.queue ≠ [] ∨
      ∃ runner ∈ s.runners, runner.phase.isExited = false := by
  rw [h.ledger.length] at hlt
  have hq := List.getElem?_eq_getElem hlt
  rw [outcome_of_found hq] at hopen
  cases (h.ledger.ledger request _ hq).stage with
  | waiting _ _ more =>
      rcases more with hparts | ⟨holder, held, -⟩
      · rw [List.count_pos_iff, openParts, List.mem_append, List.mem_flatMap,
          List.mem_flatMap] at hparts
        rcases hparts with ⟨batch, hbatch, hr⟩ | ⟨runner, hrunner, hr⟩
        · rcases List.mem_append.mp hbatch with hqueue | hactive
          · right
            left
            exact List.ne_nil_of_mem hqueue
          · left
            exact ⟨batch, by simpa using hactive, hr⟩
        · right
          right
          refine ⟨runner, hrunner, ?_⟩
          cases hphase : runner.phase with
          | exited => simp [Runner.unfinished, hphase] at hr
          | _ => rfl
      · rw [free] at held
        cases held
  | resolving _ one_resolving =>
      have hmem : GoError.join s.requests[request].errs ∈ s.resolving request := by
        rw [one_resolving]
        exact List.mem_cons_self
      obtain ⟨runner, hrunner, hr⟩ := List.mem_flatMap.mp hmem
      right
      right
      refine ⟨runner, hrunner, ?_⟩
      cases hphase : runner.phase with
      | exited => simp [Runner.resolving, hphase] at hr
      | _ => rfl
  | settled outcome =>
      rw [hopen] at outcome
      cases outcome

theorem flying_ne_nil {s : Batcher α ε} :
    s.flying ≠ [] ↔ ∃ runner ∈ s.runners, runner.phase.isExited = false := by
  unfold flying
  constructor
  · intro hne
    obtain ⟨batch, hbatch⟩ := List.exists_mem_of_ne_nil _ hne
    obtain ⟨runner, hrunner, -⟩ := List.mem_map.mp hbatch
    obtain ⟨hmem, hphase⟩ := List.mem_filter.mp hrunner
    exact ⟨runner, hmem, by simpa using hphase⟩
  · rintro ⟨runner, hmem, hphase⟩
    apply List.ne_nil_of_mem (a := runner.batch)
    exact List.mem_map_of_mem (List.mem_filter.mpr ⟨hmem, by simp [hphase]⟩)

theorem waits_of_unresolved {s : Batcher α ε} (h : s.Inv)
    (hcapacity : s.CapacityInv) (hscheduled : s.Scheduled)
    (free : s.lock = none) {request : Nat}
    (hlt : request < s.accepted.length) (hopen : s.outcome request = none) :
    (∃ batch ∈ s.active, Live s.timers batch) ∨ s.flying ≠ [] := by
  rcases h.open_of_unresolved free hlt hopen with
    ⟨batch, hbatch, -⟩ | hqueue | hrunning
  · left
    exact ⟨batch, hbatch, hcapacity.live batch hbatch⟩
  · right
    have hfull := hscheduled free hqueue
    have hpositive := s.config.concurrent_pos
    have hcount := hcapacity.inFlight
    intro hnil
    rw [hnil, List.length_nil] at hcount
    omega
  · right
    exact flying_ne_nil.mpr hrunning

end Batcher

/-- The labels of the batcher itself: a timer, a COPY that returns, or code that goes on. -/
def Action.isProgress : Action α ε → Bool
  | .submit .. => false
  | .flushAsync _ => false
  | .awaitFuture _ => false
  | .flushReturns _ => false
  | _ => true

namespace Batcher

theorem holder_enabled {s : Batcher α ε} {holder : Submitting α}
    (held : s.lock = some holder) :
    ∃ action : Action α ε, action.isProgress = true ∧
      (s.step action).isSome = true := by
  by_cases hrows : holder.rows.length = 0
  · refine ⟨.unlock, rfl, ?_⟩
    simp [Batcher.step, unlock, held, hrows]
  · refine ⟨.place, rfl, ?_⟩
    simp only [Batcher.step, place, held, if_neg hrows]
    split
    · rfl
    · rfl

theorem timer_enabled {s : Batcher α ε} (free : s.lock = none)
    {batch : CopyBatch α} (live : Live s.timers batch) :
    ∃ action : Action α ε, action.isProgress = true ∧
      (s.step action).isSome = true := by
  obtain ⟨timer, status, -, hget, hstatus⟩ := live
  rcases hstatus with rfl | rfl
  · refine ⟨.timerFires timer, rfl, ?_⟩
    simp [Batcher.step, timerFires, hget]
  · refine ⟨.flushExpiredBatch timer, rfl, ?_⟩
    simp only [Batcher.step, flushExpiredBatch, free, hget]
    split
    · rfl
    · split
      · rfl
      · rfl

theorem runner_enabled {s : Batcher α ε} (h : s.Inv) (free : s.lock = none)
    {runner : Runner α ε} (hmem : runner ∈ s.runners)
    (hphase : runner.phase.isExited = false) :
    ∃ action : Action α ε, action.isProgress = true ∧
      (s.step action).isSome = true := by
  obtain ⟨i, hi⟩ := List.mem_iff_getElem?.mp hmem
  obtain ⟨batch, outcome, phase⟩ := runner
  cases phase with
  | copying =>
      refine ⟨.copyReturns i 0 none, rfl, ?_⟩
      simp [Batcher.step, copyReturns, hi]
  | finishing remaining completed =>
      cases remaining with
      | nil =>
          refine ⟨.complete i, rfl, ?_⟩
          simp [Batcher.step, complete, free, hi]
      | cons request remaining =>
          refine ⟨.finishPart i, rfl, ?_⟩
          have hrequest : request ∈ batch.requests :=
            (h.ledger.runner _ hmem).sublist.subset List.mem_cons_self
          have hlt := h.order.runner_bounded _ hmem request hrequest
          simp [Batcher.step, finishPart, hi, List.getElem?_eq_getElem hlt]
  | resolving request err remaining completed =>
      refine ⟨.resolve i, rfl, ?_⟩
      simp [Batcher.step, resolve, hi]
  | exited => cases hphase

theorem config_move {s s' : Batcher α ε} (hmove : Move s s') :
    s'.config = s.config := by
  cases hmove <;> rfl

end Batcher

open Batcher

theorem Reachable.scheduled {s : Batcher α ε} (h : Reachable s) : s.Scheduled := by
  obtain ⟨config, start, hnew, hreach⟩ := h
  obtain ⟨accepted, rfl⟩ := newCopyBatcher_eq_ok hnew
  apply hreach.invariant (P := Batcher.Scheduled)
  · intro _ hqueue
    exact absurd rfl hqueue
  · intro _ _ _ h hstep
    exact h.step hstep

/-- The batcher keeps the normalized configuration for its whole life. -/
theorem config_of_run {config : CopyBatchConfig} {start s : Batcher α ε}
    (hnew : newCopyBatcher config false = .ok start)
    (hrun : Reaches Batcher.step start s) :
    s.config.toCopyBatchConfig = config.normalized := by
  have hstart : start.config.toCopyBatchConfig = config.normalized := by
    unfold newCopyBatcher at hnew
    split at hnew
    · cases hnew
    · cases hnew
      rfl
  have hreachable : Reachable start := ⟨config, start, hnew, .refl start⟩
  rw [← hstart]
  apply hreachable.relation (P := fun _ => True)
    (R := fun s t => t.config.toCopyBatchConfig = s.config.toCopyBatchConfig)
    hrun trivial (fun _ _ _ => trivial) (fun _ => rfl)
  · intro s t u hst htu
    exact htu.trans hst
  · intro s s' _ _ hmove
    rw [config_move hmove]

/--
The batches between dispatch and the end of `runBatch` are counted by
`inFlight` and never exceed the limit, which is at least one.  When the lock
is free, the queue waits only for capacity, and an unresolved request waits
for a live timer or for a running batch.  So the batcher can always go on
while a request is unresolved.
-/
theorem capacity_and_no_stall {config : CopyBatchConfig} {start s : Batcher α ε}
    (hnew : newCopyBatcher config false = .ok start)
    (hrun : Reaches Batcher.step start s) :
    s.inFlight = s.flying.length ∧
    s.inFlight ≤ config.normalized.maxConcurrentBatches ∧
    1 ≤ config.normalized.maxConcurrentBatches ∧
    (s.lock = none → s.queue ≠ [] →
      s.inFlight = config.normalized.maxConcurrentBatches) ∧
    (s.lock = none → ∀ request < s.accepted.length, s.outcome request = none →
      (∃ batch ∈ s.active, Live s.timers batch) ∨ s.flying ≠ []) ∧
    ∀ request < s.accepted.length, s.outcome request = none →
      ∃ action : Action α ε, action.isProgress = true ∧
        (s.step action).isSome = true := by
  have hreachable : Reachable s := ⟨config, start, hnew, hrun⟩
  have hinv := hreachable.inv
  have hscheduled := hreachable.scheduled
  obtain ⟨-, hcapacity⟩ := hreachable.invariant initial_capacityInv
    fun _ => CapacityInv.move
  have hlimit := hcapacity.limit
  have hpositive := s.config.concurrent_pos
  rw [config_of_run hnew hrun] at hlimit hpositive
  have hwaits : s.lock = none → ∀ request < s.accepted.length,
      s.outcome request = none →
        (∃ batch ∈ s.active, Live s.timers batch) ∨ s.flying ≠ [] :=
    fun free _ hlt hopen =>
      waits_of_unresolved hinv hcapacity hscheduled free hlt hopen
  refine ⟨hcapacity.inFlight, hlimit, hpositive, ?_, hwaits, ?_⟩
  · intro free hqueue
    have hfull := hscheduled free hqueue
    rw [config_of_run hnew hrun] at hfull
    omega
  · intro request hlt hopen
    cases hlock : s.lock with
    | some holder => exact holder_enabled hlock
    | none =>
        rcases hwaits hlock request hlt hopen with ⟨batch, -, hlive⟩ | hflying
        · exact timer_enabled hlock hlive
        · obtain ⟨runner, hmem, hphase⟩ := flying_ne_nil.mp hflying
          exact runner_enabled hinv hlock hmem hphase

/-- With one slot, a flushed batch waits while an unbatched one is copied. -/
def stalledTrace : List (Action Nat Unit) :=
  [.submit [1] false none none, .place, .unlock,
   .submit [2] true none none, .place, .unlock, .flushAsync [0, 1]]

def stalledStart : Batcher Nat Unit :=
  Batcher.initial (CopyBatchConfig.accepted ⟨0, 0, 1⟩ (ε := Unit) rfl)

def stalledState : Batcher Nat Unit :=
  (runFrom Batcher.step stalledStart stalledTrace).getD stalledStart

theorem capacity_and_no_stall_one_slot :
    stalledState.queue.length = 1 ∧ stalledState.inFlight = 1 ∧
      stalledState.flying ≠ [] := by
  have hrun : Reaches Batcher.step stalledStart stalledState :=
    ⟨stalledTrace, rfl⟩
  have hnew : newCopyBatcher ⟨0, 0, 1⟩ false = .ok stalledStart := rfl
  obtain ⟨-, -, -, hfull, hwaits, -⟩ := capacity_and_no_stall hnew hrun
  have hqueue : stalledState.queue ≠ [] := by
    intro hnil
    cases hnil
  refine ⟨rfl, hfull rfl hqueue, ?_⟩
  rcases hwaits rfl 1 (by decide) rfl with ⟨batch, hbatch, -⟩ | hflying
  · cases hbatch
  · exact hflying

end PgMesh.Copy
