import PgMesh.Copy.Capacity
import PgMesh.Copy.Flush
import PgMesh.Foundation.Potential

/-!
# The batcher comes to rest

Every step that the batcher takes by itself uses up work that a call of `Submit`,
`SubmitUnbatched` or `FlushAsync` has brought: seven steps for each row at most, and one
for each future that a flush awaits.  So the batcher comes to rest when no call
arrives, and then nothing is left unresolved.
-/

namespace PgMesh.Copy

open PgMesh.Foundation

variable {α ε : Type}

/-! ## The work that is left -/

/-- A batch runs and retires; each of its parts is finished and perhaps resolved. -/
def CopyBatch.work (b : CopyBatch α) : Nat := 2 * b.parts.length + 2

def Timer.work (t : Timer) : Nat :=
  match t.status with
  | .armed => 2
  | .fired => 1
  | .stopped => 0
  | .returned => 0

def Runner.work (r : Runner α ε) : Nat :=
  match r.phase with
  | .copying => r.batch.work
  | .finishing remaining _ => 2 * remaining.length + 1
  | .resolving _ _ remaining _ => 2 * remaining.length + 2
  | .exited => 0

def Flush.work (f : Flush ε) : Nat :=
  f.remaining.length + if f.result.outcome.isNone then 1 else 0

/-- A row of the lock holder may need a part, a batch, a timer and the step that places it. -/
def Submitting.work (holder : Submitting α) : Nat := 7 * holder.rows.length + 1

namespace Batcher

/-- The work left, apart from that of the lock holder. -/
def load (s : Batcher α ε) : Nat :=
  (s.timers.map Timer.work).sum + (s.active.toList.map CopyBatch.work).sum +
    (s.queue.map CopyBatch.work).sum + (s.runners.map Runner.work).sum +
    (s.flushes.map Flush.work).sum

def work (s : Batcher α ε) : Nat := (s.lock.map Submitting.work).getD 0 + s.load

end Batcher

/-- The steps of the batcher itself, which no caller takes. -/
def Action.isOwn : Action α ε → Bool
  | .submit .. => false
  | .flushAsync _ => false
  | _ => true

/-- The work that a call brings. -/
def Action.credit : Action α ε → Nat
  | .submit rows _ _ _ => 7 * rows.length + 1
  | .flushAsync order => order.length + 1
  | _ => 0

theorem Regroup.work_le {queue queue' : List (CopyBatch α)} (h : Regroup queue queue') :
    (queue'.map CopyBatch.work).sum ≤ (queue.map CopyBatch.work).sum := by
  induction h with
  | nil => exact Nat.le_refl _
  | keep batch _ ih =>
      simp only [List.map_cons, List.sum_cons]
      omega
  | merge _ _ _ ih =>
      simp only [List.map_cons, List.sum_cons, CopyBatch.work, CopyBatch.merge,
        List.length_append] at ih ⊢
      omega

theorem Timer.work_stop (t : Timer) : t.stop.work ≤ t.work := by
  obtain ⟨batch, status⟩ := t
  cases status <;> simp [Timer.stop, Timer.work]

namespace Batcher

/-! ## Critical sections -/

theorem timers_work_stop (timers : List Timer) (timer : Nat) :
    ((timers.modify timer Timer.stop).map Timer.work).sum ≤ (timers.map Timer.work).sum := by
  induction timers generalizing timer with
  | nil => simp
  | cons t timers ih =>
      cases timer with
      | zero =>
          have := t.work_stop
          simp only [List.modify_zero_cons, List.map_cons, List.sum_cons]
          omega
      | succ timer =>
          have := ih timer
          simp only [List.modify_succ_cons, List.map_cons, List.sum_cons]
          omega

theorem schedule_load (s : Batcher α ε) :
    s.schedule.lock = s.lock ∧ s.schedule.load ≤ s.load := by
  obtain ⟨batches, rest, hregroup, heq, -⟩ := s.schedule_spec
  have hwork := hregroup.work_le
  have hstart : (batches.map (Runner.start (ε := ε))).map Runner.work =
      batches.map CopyBatch.work := by
    simp [Function.comp_def, Runner.start, Runner.work]
  rw [heq]
  refine ⟨rfl, ?_⟩
  simp only [load, List.map_append, List.sum_append, hstart] at hwork ⊢
  omega

theorem schedule_work (s : Batcher α ε) : s.schedule.work ≤ s.work := by
  obtain ⟨hlock, hload⟩ := s.schedule_load
  simp only [work, hlock]
  omega

theorem enqueueActive_load (s : Batcher α ε) (reason : FlushReason) :
    (s.enqueueActive reason).lock = s.lock ∧ (s.enqueueActive reason).load ≤ s.load := by
  cases hactive : s.active with
  | none =>
      rw [enqueueActive_of_none hactive]
      exact ⟨rfl, Nat.le_refl _⟩
  | some batch =>
      have hbatch : (batch.detached reason).work = batch.work := rfl
      simp only [enqueueActive, detachActiveLocked, hactive, enqueueLocked]
      cases htimer : batch.timer with
      | none =>
          simp only [stopTimer]
          split
          · simp [load, hactive]
          · simp [load, hactive, hbatch]
            omega
      | some timer =>
          have hstop := timers_work_stop s.timers timer
          simp only [stopTimer]
          split
          · simp [load, hactive]
            omega
          · simp [load, hactive, hbatch]
            omega

theorem enqueueActive_work (s : Batcher α ε) (reason : FlushReason) :
    (s.enqueueActive reason).work ≤ s.work := by
  obtain ⟨hlock, hload⟩ := s.enqueueActive_load reason
  simp only [work, hlock]
  omega

theorem appendToActive_load (s : Batcher α ε) {active : CopyBatch α}
    (hactive : s.active = some active) (rows : List α) (request : Nat) :
    (s.appendToActive active rows request).1.load ≤ s.load + 2 := by
  have hopen : ∀ taken, load (addPart { s with active := some (active.append request taken) }
      request) = s.load + 2 := by
    intro taken
    simp [load, addPart, hactive, CopyBatch.work, CopyBatch.append]
    omega
  simp only [appendToActive]
  generalize rows.take _ = taken
  split
  · exact le_of_le_of_eq (enqueueActive_load _ _).2 (hopen taken)
  · exact (hopen taken).le

theorem appendRequestLocked_load (s : Batcher α ε) (rows : List α) (request : Nat) :
    (s.appendRequestLocked rows request).1.load ≤ s.load + 6 := by
  cases hactive : s.active with
  | none =>
      simp only [appendRequestLocked, hactive, openBatchLocked]
      refine (appendToActive_load _ rfl rows request).trans ?_
      simp [load, hactive, CopyBatch.work, Timer.work]
      omega
  | some active =>
      simp only [appendRequestLocked, hactive]
      exact (appendToActive_load s hactive rows request).trans (by omega)

/-! ## Steps -/

theorem place_work {s s' : Batcher α ε} (h : s.ActiveInv) (hstep : s.place = some s') :
    s'.work < s.work := by
  cases held : s.lock with
  | none => simp [place, held] at hstep
  | some holder =>
      have hrows : holder.rows ≠ [] := by
        intro hnil
        simp [place, held, hnil] at hstep
      obtain ⟨next, rowCount, hplace, -, hpositive, hle, hlock⟩ := place_spec h held hrows
      rw [hplace] at hstep
      cases hstep
      -- At least one row is placed, and a placed row adds a load of at most six.
      have hload : s'.load ≤ s.load + 6 := by
        have hlength : ¬holder.rows.length = 0 := by omega
        simp only [place, held, if_neg hlength] at hplace
        split at hplace
        · cases hplace
          exact appendRequestLocked_load s holder.rows holder.request
        · cases hplace
          simp [enqueueUnbatchedLocked_eq hrows, load, CopyBatch.work]
          omega
      simp only [work, held, hlock, Option.map_some, Option.getD_some, Submitting.work,
        List.length_drop]
      omega

theorem unlock_work {s s' : Batcher α ε} (hstep : s.unlock = some s') :
    s'.work < s.work := by
  simp only [unlock] at hstep
  split at hstep
  · cases hstep
  · rename_i holder held
    split at hstep
    · cases hstep
      obtain ⟨hlock, hload⟩ := schedule_load { s with lock := none }
      have hsame : load { s with lock := none } = s.load := rfl
      simp only [work, hlock, held, Option.map_none, Option.getD_none, Option.map_some,
        Option.getD_some, Submitting.work]
      omega
    · cases hstep

theorem timerFires_work {s s' : Batcher α ε} {timer : Nat}
    (hstep : s.timerFires timer = some s') : s'.work < s.work := by
  simp only [timerFires] at hstep
  split at hstep
  · rename_i id hget
    cases hstep
    have hsum := sum_map_set hget ⟨id, .fired⟩ Timer.work
    simp only [Timer.work] at hsum
    simp only [work, load]
    omega
  · cases hstep

theorem flushExpiredBatch_work {s s' : Batcher α ε} {timer : Nat}
    (hstep : s.flushExpiredBatch timer = some s') : s'.work < s.work := by
  simp only [flushExpiredBatch] at hstep
  split at hstep
  · rename_i id hlock hget
    have hsum := sum_map_set hget ⟨id, .returned⟩ Timer.work
    simp only [Timer.work] at hsum
    split at hstep
    · cases hstep
      simp only [work, load]
      omega
    · rename_i batch hactive
      split at hstep
      · cases hstep
        simp only [work, load]
        omega
      · cases hstep
        have hbatch : (batch.detached .linger).work = batch.work := rfl
        simp only [enqueueLocked]
        split
        all_goals
          refine lt_of_le_of_lt (schedule_work _) ?_
          simp only [work, load, hactive, Option.toList_none, Option.toList_some,
            List.map_append, List.sum_append, List.map_cons, List.map_nil, List.sum_cons,
            List.sum_nil, hbatch]
          omega
  · cases hstep

theorem flushAsync_work {s s' : Batcher α ε} {order : List Nat}
    (hstep : s.flushAsync order = some s') : s'.work ≤ s.work + (order.length + 1) := by
  simp only [flushAsync] at hstep
  split at hstep
  · cases hstep
  · split at hstep
    · cases hstep
      have hdetached := s.enqueueActive_work .manual
      have hscheduled := (s.enqueueActive .manual).schedule_work
      simp only [work, load, List.map_append, List.sum_append] at hdetached hscheduled ⊢
      simp [Flush.work]
      omega
    · cases hstep

theorem copyReturns_work {s s' : Batcher α ε} {i : Nat} {count : Int64}
    {err : Option (GoError ε)} (hstep : s.copyReturns i count err = some s') :
    s'.work < s.work := by
  simp only [copyReturns] at hstep
  split at hstep
  · rename_i batch outcome hrunner
    cases hstep
    have hsum := sum_map_set hrunner
      ⟨batch, some (count, err), .finishing batch.requests []⟩ Runner.work
    have hlength : batch.requests.length = batch.parts.length := List.length_map _
    simp only [Runner.work, CopyBatch.work, hlength] at hsum
    simp only [work, load]
    omega
  · cases hstep

theorem finishPart_work {s s' : Batcher α ε} {i : Nat}
    (hstep : s.finishPart i = some s') : s'.work < s.work := by
  simp only [finishPart] at hstep
  split at hstep
  · rename_i batch outcome request remaining completed hrunner
    split at hstep
    · cases hstep
    · cases hstep
      have hsum := fun phase => sum_map_set hrunner ⟨batch, outcome, phase⟩ Runner.work
      simp only [work, load]
      split
      · have := hsum (.finishing remaining completed)
        simp only [Runner.work, List.length_cons] at this
        omega
      · rename_i err _
        have := hsum (.resolving request err remaining completed)
        simp only [Runner.work, List.length_cons] at this
        omega
  · cases hstep

theorem resolve_work {s s' : Batcher α ε} {i : Nat}
    (hstep : s.resolve i = some s') : s'.work < s.work := by
  simp only [resolve] at hstep
  split at hstep
  · rename_i batch outcome request err remaining completed hrunner
    cases hstep
    have hsum := sum_map_set hrunner
      ⟨batch, outcome, .finishing remaining (completed ++ [request])⟩ Runner.work
    simp only [Runner.work] at hsum
    simp only [work, load]
    omega
  · cases hstep

theorem complete_work {s s' : Batcher α ε} {i : Nat}
    (hstep : s.complete i = some s') : s'.work < s.work := by
  simp only [complete] at hstep
  split at hstep
  · rename_i batch outcome completed hlock hrunner
    cases hstep
    have hsum := sum_map_set hrunner ⟨batch, outcome, .exited⟩ Runner.work
    simp only [Runner.work, List.length_nil] at hsum
    refine lt_of_le_of_lt (schedule_work _) ?_
    simp only [work, load]
    omega
  · cases hstep

theorem awaitFuture_work {s s' : Batcher α ε} {k : Nat}
    (hstep : s.awaitFuture k = some s') : s'.work < s.work := by
  simp only [awaitFuture] at hstep
  split at hstep
  · rename_i barrier futures request remaining errs result hwaiting
    split at hstep
    · cases hstep
    · rename_i err _
      cases hstep
      have hsum := sum_map_set hwaiting
        ⟨barrier, futures, remaining, errs ++ err.toList, result⟩ Flush.work
      simp only [Flush.work, List.length_cons] at hsum
      simp only [work, load]
      omega
  · cases hstep

theorem flushReturns_work {s s' : Batcher α ε} {k : Nat}
    (hstep : s.flushReturns k = some s') : s'.work < s.work := by
  simp only [flushReturns] at hstep
  split at hstep
  · rename_i barrier futures errs hwaiting
    cases hstep
    have hsum := sum_map_set hwaiting
      ⟨barrier, futures, [], errs, Future.resolved () (GoError.join errs)⟩ Flush.work
    have hbefore : Flush.work (ε := ε) ⟨barrier, futures, [], errs, ⟨none⟩⟩ = 1 := rfl
    have hafter : Flush.work (ε := ε)
        ⟨barrier, futures, [], errs, Future.resolved () (GoError.join errs)⟩ = 0 := rfl
    rw [hbefore, hafter] at hsum
    simp only [work, load]
    omega
  · cases hstep

theorem submit_work {s s' : Batcher α ε} {rows : List α} {coalesce : Bool}
    {ctxErr ctxErrLocked : Option (GoError ε)} {reply : Reply ε}
    (hstep : s.submit rows coalesce ctxErr ctxErrLocked = some (s', reply)) :
    s'.work ≤ s.work + (7 * rows.length + 1) := by
  simp only [submit] at hstep
  split at hstep
  · cases hstep
    exact Nat.le_add_right _ _
  · split at hstep
    · cases hstep
      exact Nat.le_add_right _ _
    · cases hstep
    · cases hstep
      exact Nat.le_add_right _ _
    · rename_i hlock
      cases hstep
      simp only [work, load, accept, hlock, Submitting.work, Option.map_some, Option.getD_some,
        Option.map_none, Option.getD_none]
      omega

theorem own_work {s s' : Batcher α ε} (h : s.ActiveInv) {action : Action α ε}
    (hown : action.isOwn = true) (hstep : s.step action = some s') : s'.work < s.work := by
  cases action with
  | submit rows coalesce ctxErr ctxErrLocked => cases hown
  | flushAsync order => cases hown
  | place => exact place_work h hstep
  | unlock => exact unlock_work hstep
  | timerFires timer => exact timerFires_work hstep
  | flushExpiredBatch timer => exact flushExpiredBatch_work hstep
  | copyReturns runner count err => exact copyReturns_work hstep
  | finishPart runner => exact finishPart_work hstep
  | resolve runner => exact resolve_work hstep
  | complete runner => exact complete_work hstep
  | awaitFuture flush => exact awaitFuture_work hstep
  | flushReturns flush => exact flushReturns_work hstep

theorem call_work {s s' : Batcher α ε} {action : Action α ε} (hcall : action.isOwn = false)
    (hstep : s.step action = some s') : s'.work ≤ s.work + action.credit := by
  cases action with
  | submit rows coalesce ctxErr ctxErrLocked =>
      obtain ⟨⟨next, reply⟩, hsubmit, rfl⟩ := Option.map_eq_some_iff.mp hstep
      exact submit_work hsubmit
  | flushAsync order => exact flushAsync_work hstep
  | _ => cases hcall

theorem lowers : Lowers (Batcher.step (α := α) (ε := ε)) ActiveInv work Action.isOwn where
  preserved h hstep :=
    (Moves.invariant (step_moves h hstep) h trivial (P := fun _ => True) fun _ _ _ => trivial).1
  lowers h hown hstep := own_work h hown hstep

/-! ## Rest -/

/-- Nothing is left to do, and nobody waits. -/
structure Settled (s : Batcher α ε) : Prop where
  lock : s.lock = none
  active : s.active = none
  queue : s.queue = []
  inFlight : s.inFlight = 0
  pending : s.pending = []
  requests : ∀ request < s.accepted.length, s.outcome request ≠ none
  flushes : ∀ f ∈ s.flushes, f.result.outcome ≠ none

end Batcher

theorem Action.isOwn_of_isProgress {action : Action α ε} (h : action.isProgress = true) :
    action.isOwn = true := by
  cases action with
  | submit rows coalesce ctxErr ctxErrLocked => cases h
  | flushAsync order => cases h
  | _ => rfl

open Batcher

/-- A flush that awaits only resolved futures goes on. -/
theorem Flush.WellFormed.enabled {s : Batcher α ε} {k : Nat} {f : Flush ε}
    (h : f.WellFormed s) (hf : s.flushes[k]? = some f)
    (hresolved : ∀ request < s.requests.length, s.outcome request ≠ none)
    (hwaiting : f.result.outcome = none) :
    ∃ action : Action α ε, action.isOwn = true ∧ s.step action ≠ none := by
  obtain ⟨barrier, futures, remaining, errs, ⟨outcome⟩⟩ := f
  obtain rfl : outcome = none := hwaiting
  cases remaining with
  | nil =>
      refine ⟨.flushReturns k, rfl, ?_⟩
      simp [Batcher.step, Batcher.flushReturns, hf]
  | cons request remaining =>
      refine ⟨.awaitFuture k, rfl, ?_⟩
      obtain ⟨finished, hfutures, -⟩ := h.awaited
      have hmem : request ∈ futures := by
        rw [show futures = finished ++ request :: remaining from hfutures]
        simp
      have hlt := Nat.lt_of_lt_of_le (h.before request hmem) h.bound
      obtain ⟨outcome, houtcome⟩ := Option.ne_none_iff_exists'.mp (hresolved request hlt)
      have hawait : (s.requests[request]?).bind (·.result.await) = some outcome := houtcome
      simp [Batcher.step, Batcher.awaitFuture, hf, hawait]

theorem Reachable.settled_of_idle {s : Batcher α ε} (h : Reachable s)
    (hidle : ∀ action : Action α ε, action.isOwn = true → s.step action = none) :
    s.Settled := by
  have hinv := h.inv
  have hcapacity := (h.invariant initial_capacityInv fun _ h hmove => h.move hmove).2
  have hstuck : ¬∃ action : Action α ε, action.isProgress = true ∧
      (s.step action).isSome = true := by
    rintro ⟨action, hprogress, hstep⟩
    rw [hidle action (Action.isOwn_of_isProgress hprogress)] at hstep
    cases hstep
  have hlock : s.lock = none := by
    cases hlock : s.lock with
    | none => rfl
    | some holder => exact absurd (holder_enabled hlock) hstuck
  have hactive : s.active = none := by
    cases hactive : s.active with
    | none => rfl
    | some batch => exact absurd (timer_enabled hlock (hcapacity.live batch hactive)) hstuck
  have hexited : ∀ runner ∈ s.runners, runner.phase.isExited = true := by
    intro runner hrunner
    by_contra hphase
    exact hstuck (runner_enabled hinv hlock hrunner (by simpa using hphase))
  have hflying : s.flying = [] := by
    by_contra hne
    obtain ⟨runner, hrunner, hphase⟩ := flying_ne_nil.mp hne
    rw [hexited runner hrunner] at hphase
    cases hphase
  have hinFlight : s.inFlight = 0 := by
    rw [hcapacity.inFlight, hflying]
    rfl
  have hqueue : s.queue = [] := by
    by_contra hne
    have hfull := h.scheduled hlock hne
    have hpositive := s.config.concurrent_pos
    omega
  obtain ⟨hpending, hrequests⟩ :=
    hinv.quiescent hactive hqueue hexited (by simp [hlock])
  refine ⟨hlock, hactive, hqueue, hinFlight, hpending, hrequests, ?_⟩
  intro f hf hwaiting
  obtain ⟨k, hk⟩ := List.mem_iff_getElem?.mp hf
  rw [hinv.ledger.length] at hrequests
  obtain ⟨action, hown, hstep⟩ := (h.flushInv f hf).enabled hk hrequests hwaiting
  exact hstep (hidle action hown)

/--
In any run the batcher takes at most seven steps of its own for each submitted row, and
one for each call and for each future that a flush awaits.  Where it can take none,
everything is resolved; and from everywhere its own steps lead there.
-/
theorem batcher_comes_to_rest {config : CopyBatchConfig} {start s : Batcher α ε}
    (hnew : newCopyBatcher config false = .ok start) {labels : List (Action α ε)}
    (hrun : runFrom Batcher.step start labels = some s) :
    labels.countP Action.isOwn ≤ (labels.map Action.credit).sum ∧
    ((∀ action : Action α ε, action.isOwn = true → s.step action = none) → s.Settled) ∧
    ∃ rest t, (∀ label ∈ rest, label.isOwn = true) ∧
      runFrom Batcher.step s rest = some t ∧ t.Settled := by
  have hreachable : Reachable s := ⟨config, start, hnew, labels, hrun⟩
  refine ⟨?_, hreachable.settled_of_idle, ?_⟩
  · obtain ⟨accepted, rfl⟩ := newCopyBatcher_eq_ok hnew
    have hcount := lowers.countP_le (fun _ => call_work) (initial_activeInv accepted) hrun
    have hzero : (Batcher.initial accepted : Batcher α ε).work = 0 := rfl
    omega
  · obtain ⟨rest, t, hown, hrest, hidle⟩ := lowers.exists_exhausted hreachable.activeInv
    exact ⟨rest, t, hown, hrest, (hreachable.trans ⟨rest, hrest⟩).settled_of_idle hidle⟩

theorem batcher_comes_to_rest_split :
    splitTrace.countP Action.isOwn = 5 ∧
      ∃ rest t, (∀ label ∈ rest, label.isOwn = true) ∧
        runFrom Batcher.step splitState rest = some t ∧ t.Settled := by
  have hnew : newCopyBatcher splitConfig false = .ok splitStart := rfl
  have hrun : runFrom Batcher.step splitStart splitTrace = some splitState := rfl
  exact ⟨rfl, (batcher_comes_to_rest hnew hrun).2.2⟩

end PgMesh.Copy
