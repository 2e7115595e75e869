import PgMesh.Copy.Moves

/-!
# Names and reasons of batches

A batch keeps its name while it moves from the active slot through the queue to a
goroutine of `runBatch`, and it gets its reason when it is detached.  What can be said
of a batch by its name and reason is therefore checked where a batch is opened or
detached, and nowhere else.
-/

namespace PgMesh.Copy

open PgMesh.Foundation

variable {α ε : Type}

/-- The goroutine that an action belongs to, past its physical COPY. -/
def Action.runner? : Action α ε → Option Nat
  | .finishPart runner => some runner
  | .resolve runner => some runner
  | .complete runner => some runner
  | _ => none

theorem Regroup.exists_named {queue queue' : List (CopyBatch α)} (h : Regroup queue queue')
    {batch : CopyBatch α} (hbatch : batch ∈ queue') :
    ∃ old ∈ queue, old.id = batch.id ∧ old.reason = batch.reason := by
  induction h with
  | nil => cases hbatch
  | keep first _ ih =>
      rcases List.mem_cons.mp hbatch with rfl | hbatch
      · exact ⟨batch, List.mem_cons_self, rfl, rfl⟩
      · obtain ⟨old, hold, hsame⟩ := ih hbatch
        exact ⟨old, List.mem_cons_of_mem _ hold, hsame⟩
  | @merge first next queue queue' hfirst hnext _ ih =>
      obtain ⟨old, hold, hsame⟩ := ih hbatch
      rcases List.mem_cons.mp hold with rfl | hold
      · exact ⟨first, List.mem_cons_self, hsame⟩
      · exact ⟨old, List.mem_cons_of_mem _ (List.mem_cons_of_mem _ hold), hsame⟩

namespace Batcher

/-! ## Steps -/

/-- States with the same batches, timers and goroutines. -/
structure SameBatches (s t : Batcher α ε) : Prop where
  active : t.active = s.active
  queue : t.queue = s.queue
  timers : t.timers = s.timers
  nextBatch : t.nextBatch = s.nextBatch
  runners : t.runners = s.runners

theorem SameBatches.refl (s : Batcher α ε) : s.SameBatches s := ⟨rfl, rfl, rfl, rfl, rfl⟩

/-- What a step does to the batches, the timers and the goroutines. -/
inductive BatchStep (s : Batcher α ε) : Action α ε → Batcher α ε → Prop
  | idle {action : Action α ε} {t : Batcher α ε} : s.SameBatches t → BatchStep s action t
  | append (rows : List α) (request : Nat) {t : Batcher α ε} :
      (s.appendRequestLocked rows request).1.SameBatches t → BatchStep s .place t
  | unbatched (parts : List (CopyPart α)) {t : Batcher α ε} :
      SameBatches { s with
        queue := s.queue ++ [⟨s.nextBatch, parts, none, some .unbatched⟩]
        nextBatch := s.nextBatch + 1 } t → BatchStep s .place t
  | unlock {t : Batcher α ε} : s.SameBatches t → BatchStep s .unlock t.schedule
  | fires {timer id : Nat} : s.timers[timer]? = some ⟨id, .armed⟩ →
      BatchStep s (.timerFires timer) { s with timers := s.timers.set timer ⟨id, .fired⟩ }
  | stale {timer id : Nat} : s.timers[timer]? = some ⟨id, .fired⟩ →
      BatchStep s (.flushExpiredBatch timer)
        { s with timers := s.timers.set timer ⟨id, .returned⟩ }
  | expired {timer : Nat} {batch : CopyBatch α} : s.timers[timer]? = some ⟨batch.id, .fired⟩ →
      s.active = some batch → BatchStep s (.flushExpiredBatch timer)
        (enqueueLocked { s with
          timers := s.timers.set timer ⟨batch.id, .returned⟩
          active := none } (some (batch.detached .linger))).schedule
  | flush {order : List Nat} {t : Batcher α ε} :
      (s.enqueueActive .manual).schedule.SameBatches t → BatchStep s (.flushAsync order) t
  | returns {i : Nat} {count : Int64} {err : Option (GoError ε)} {runner runner' : Runner α ε} :
      s.runners[i]? = some runner → runner'.batch = runner.batch →
      BatchStep s (.copyReturns i count err) { s with runners := s.runners.set i runner' }
  | advance {action : Action α ε} {i : Nat} {runner runner' : Runner α ε} {t : Batcher α ε} :
      action.runner? = some i → s.runners[i]? = some runner → runner'.batch = runner.batch →
      runner'.outcome = runner.outcome → runner'.phase ≠ .copying →
      SameBatches { s with runners := s.runners.set i runner' } t → BatchStep s action t
  | complete {i : Nat} {runner runner' : Runner α ε} {t : Batcher α ε} :
      s.runners[i]? = some runner → runner'.batch = runner.batch →
      runner'.outcome = runner.outcome → runner'.phase ≠ .copying →
      SameBatches { s with runners := s.runners.set i runner' } t →
      BatchStep s (.complete i) t.schedule

theorem place_cases {s s' : Batcher α ε} (hstep : s.place = some s') : BatchStep s .place s' := by
  unfold place at hstep
  split at hstep
  · cases hstep
  · rename_i holder held
    split at hstep
    · cases hstep
    · rename_i hrows
      split at hstep
      · cases hstep
        exact .append holder.rows holder.request ⟨rfl, rfl, rfl, rfl, rfl⟩
      · cases hstep
        have hne : holder.rows ≠ [] := fun hnil => hrows (by simp [hnil])
        rw [enqueueUnbatchedLocked_eq hne]
        exact .unbatched [⟨holder.request, holder.rows⟩] ⟨rfl, rfl, rfl, rfl, rfl⟩

theorem flushExpiredBatch_cases {s s' : Batcher α ε} {timer : Nat}
    (hstep : s.flushExpiredBatch timer = some s') :
    BatchStep s (.flushExpiredBatch timer) s' := by
  unfold flushExpiredBatch at hstep
  split at hstep
  · rename_i id hlock hfired
    dsimp only at hstep
    split at hstep
    · cases hstep
      exact .stale hfired
    · rename_i batch hactive
      split at hstep
      · cases hstep
        exact .stale hfired
      · rename_i hid
        obtain rfl : batch.id = id := not_not.mp hid
        cases hstep
        exact .expired hfired hactive
  · cases hstep

theorem runner_cases {s s' : Batcher α ε} {action : Action α ε} {i : Nat}
    (htarget : action.runner? = some i) (hstep : s.step action = some s') :
    BatchStep s action s' := by
  cases action with
  | finishPart runner =>
      obtain rfl : runner = i := Option.some.inj htarget
      change s.finishPart runner = some s' at hstep
      unfold finishPart at hstep
      split at hstep
      · rename_i hrunner
        split at hstep
        · cases hstep
        · cases hstep
          refine .advance rfl hrunner ?_ ?_ ?_ ⟨rfl, rfl, rfl, rfl, rfl⟩
          · rfl
          · rfl
          · simp only
            split <;> simp
      · cases hstep
  | resolve runner =>
      obtain rfl : runner = i := Option.some.inj htarget
      change s.resolve runner = some s' at hstep
      unfold resolve at hstep
      split at hstep
      · rename_i hrunner
        cases hstep
        refine .advance rfl hrunner ?_ ?_ ?_ ⟨rfl, rfl, rfl, rfl, rfl⟩
        · rfl
        · rfl
        · simp
      · cases hstep
  | complete runner =>
      obtain rfl : runner = i := Option.some.inj htarget
      change s.complete runner = some s' at hstep
      unfold complete at hstep
      split at hstep
      · rename_i hrunner
        cases hstep
        refine .complete hrunner ?_ ?_ ?_ ⟨rfl, rfl, rfl, rfl, rfl⟩
        · rfl
        · rfl
        · simp
      · cases hstep
  | _ => cases htarget

/-- Every step of the batcher is one of these. -/
theorem step_cases {s s' : Batcher α ε} {action : Action α ε}
    (hstep : s.step action = some s') : BatchStep s action s' := by
  cases action with
  | submit rows coalesce ctxErr ctxErrLocked =>
      obtain ⟨⟨next, reply⟩, hsubmit, rfl⟩ := Option.map_eq_some_iff.mp hstep
      simp only [submit] at hsubmit
      split at hsubmit
      · cases hsubmit
        exact .idle (.refl _)
      · split at hsubmit <;> cases hsubmit <;> exact .idle ⟨rfl, rfl, rfl, rfl, rfl⟩
  | place => exact place_cases hstep
  | unlock =>
      change s.unlock = some s' at hstep
      unfold unlock at hstep
      split at hstep
      · cases hstep
      · split at hstep
        · cases hstep
          exact .unlock ⟨rfl, rfl, rfl, rfl, rfl⟩
        · cases hstep
  | timerFires timer =>
      change s.timerFires timer = some s' at hstep
      unfold timerFires at hstep
      split at hstep
      · rename_i harmed
        cases hstep
        exact .fires harmed
      · cases hstep
  | flushExpiredBatch timer => exact flushExpiredBatch_cases hstep
  | flushAsync order =>
      change s.flushAsync order = some s' at hstep
      unfold flushAsync at hstep
      split at hstep
      · cases hstep
      · split at hstep
        · cases hstep
          exact .flush ⟨rfl, rfl, rfl, rfl, rfl⟩
        · cases hstep
  | copyReturns runner count err =>
      change s.copyReturns runner count err = some s' at hstep
      unfold copyReturns at hstep
      split at hstep
      · rename_i hrunner
        cases hstep
        exact .returns hrunner rfl
      · cases hstep
  | finishPart runner => exact runner_cases rfl hstep
  | resolve runner => exact runner_cases rfl hstep
  | complete runner => exact runner_cases rfl hstep
  | awaitFuture flush =>
      change s.awaitFuture flush = some s' at hstep
      unfold awaitFuture at hstep
      split at hstep
      · split at hstep <;> cases hstep
        exact .idle ⟨rfl, rfl, rfl, rfl, rfl⟩
      · cases hstep
  | flushReturns flush =>
      change s.flushReturns flush = some s' at hstep
      unfold flushReturns at hstep
      split at hstep <;> cases hstep
      exact .idle ⟨rfl, rfl, rfl, rfl, rfl⟩

/-! ## Timers -/

/-- A timer keeps its batch, and no timer has fired that had not; a new one has a new batch. -/
structure TimersKept (timers : List Timer) (nextBatch : Nat) (timers' : List Timer)
    (nextBatch' : Nat) : Prop where
  nextBatch : nextBatch ≤ nextBatch'
  timers : ∀ (i : Nat) (t' : Timer), timers'[i]? = some t' →
    (∃ t, timers[i]? = some t ∧ t'.batch = t.batch ∧ (t'.status = .fired → t.status = .fired)) ∨
    (t'.batch < nextBatch' ∧ t'.status ≠ .fired)

namespace TimersKept

theorem refl (timers : List Timer) (n : Nat) : TimersKept timers n timers n :=
  ⟨Nat.le_refl n, fun _ t ht => .inl ⟨t, ht, rfl, id⟩⟩

theorem trans {timers timers' timers'' : List Timer} {n n' n'' : Nat}
    (h : TimersKept timers n timers' n') (h' : TimersKept timers' n' timers'' n'') :
    TimersKept timers n timers'' n'' := by
  refine ⟨Nat.le_trans h.nextBatch h'.nextBatch, ?_⟩
  intro i t'' ht''
  rcases h'.timers i t'' ht'' with ⟨t', ht', hbatch, hfired⟩ | hnew
  · rcases h.timers i t' ht' with ⟨t, ht, hbatch', hfired'⟩ | ⟨hlt, hnot⟩
    · exact .inl ⟨t, ht, hbatch.trans hbatch', fun hf => hfired' (hfired hf)⟩
    · right
      rw [hbatch]
      exact ⟨Nat.lt_of_lt_of_le hlt h'.nextBatch, fun hf => hnot (hfired hf)⟩
  · exact .inr hnew

theorem stop (timers : List Timer) (n timer : Nat) :
    TimersKept timers n (timers.modify timer Timer.stop) n := by
  refine ⟨Nat.le_refl n, ?_⟩
  intro i t' ht'
  rw [List.getElem?_modify] at ht'
  obtain ⟨t, ht, rfl⟩ := Option.map_eq_some_iff.mp ht'
  refine .inl ⟨t, ht, ?_⟩
  split
  · obtain ⟨batch, status⟩ := t
    cases status <;> simp [Timer.stop]
  · exact ⟨rfl, id⟩

theorem set_returned {timers : List Timer} {timer id : Nat} {status : TimerStatus}
    (h : timers[timer]? = some ⟨id, status⟩) (n : Nat) :
    TimersKept timers n (timers.set timer ⟨id, .returned⟩) n := by
  refine ⟨Nat.le_refl n, ?_⟩
  intro i t ht
  rcases getElem?_set_cases ht with ⟨rfl, rfl⟩ | ⟨-, ht⟩
  · exact .inl ⟨_, h, rfl, nofun⟩
  · exact .inl ⟨t, ht, rfl, fun hf => hf⟩

theorem opened (timers : List Timer) (n : Nat) :
    TimersKept timers n (timers ++ [⟨n, .armed⟩]) (n + 1) := by
  refine ⟨Nat.le_succ n, ?_⟩
  intro i t ht
  rcases getElem?_append_singleton ht with ht | ⟨-, rfl⟩
  · exact .inl ⟨t, ht, rfl, id⟩
  · exact .inr ⟨Nat.lt_succ_self n, by simp⟩

end TimersKept

@[simp] theorem enqueueLocked_timers (s : Batcher α ε) (batch : Option (CopyBatch α)) :
    (s.enqueueLocked batch).timers = s.timers ∧
      (s.enqueueLocked batch).nextBatch = s.nextBatch := by
  unfold enqueueLocked
  split
  · exact ⟨rfl, rfl⟩
  · split <;> exact ⟨rfl, rfl⟩

theorem schedule_timers (s : Batcher α ε) :
    s.schedule.timers = s.timers ∧ s.schedule.nextBatch = s.nextBatch := by
  obtain ⟨batches, rest, -, heq, -⟩ := s.schedule_spec
  rw [heq]
  exact ⟨rfl, rfl⟩

theorem enqueueActive_timers (s : Batcher α ε) (reason : FlushReason) :
    TimersKept s.timers s.nextBatch (s.enqueueActive reason).timers
      (s.enqueueActive reason).nextBatch := by
  cases hactive : s.active with
  | none =>
      rw [enqueueActive_of_none hactive]
      exact .refl _ _
  | some batch =>
      simp only [enqueueActive, detachActiveLocked, hactive, enqueueLocked_timers]
      unfold stopTimer
      split
      · exact .refl _ _
      · exact .stop _ _ _

theorem appendToActive_timers (s : Batcher α ε) (active : CopyBatch α) (rows : List α)
    (request : Nat) : TimersKept s.timers s.nextBatch
      (s.appendToActive active rows request).1.timers
      (s.appendToActive active rows request).1.nextBatch := by
  simp only [appendToActive]
  generalize rows.take _ = taken
  split
  · exact enqueueActive_timers
      (addPart { s with active := some (active.append request taken) } request) .full
  · exact .refl _ _

theorem appendRequestLocked_timers (s : Batcher α ε) (rows : List α) (request : Nat) :
    TimersKept s.timers s.nextBatch (s.appendRequestLocked rows request).1.timers
      (s.appendRequestLocked rows request).1.nextBatch := by
  unfold appendRequestLocked
  split
  · exact (TimersKept.opened _ _).trans (appendToActive_timers s.openBatchLocked.1 _ _ _)
  · exact appendToActive_timers s _ _ _

theorem SameBatches.timersKept {timers : List Timer} {n : Nat} {s t : Batcher α ε}
    (hsame : s.SameBatches t) (h : TimersKept timers n s.timers s.nextBatch) :
    TimersKept timers n t.timers t.nextBatch := by
  rw [hsame.timers, hsame.nextBatch]
  exact h

theorem TimersKept.schedule {timers : List Timer} {n : Nat} {s : Batcher α ε}
    (h : TimersKept timers n s.timers s.nextBatch) :
    TimersKept timers n s.schedule.timers s.schedule.nextBatch := by
  rw [s.schedule_timers.1, s.schedule_timers.2]
  exact h

theorem step_timers {s s' : Batcher α ε} {action : Action α ε}
    (hquiet : ∀ timer, action ≠ .timerFires timer) (hstep : s.step action = some s') :
    TimersKept s.timers s.nextBatch s'.timers s'.nextBatch := by
  cases step_cases hstep with
  | idle hsame => exact hsame.timersKept (.refl _ _)
  | append rows request hsame => exact hsame.timersKept (appendRequestLocked_timers s rows request)
  | unbatched parts hsame =>
      exact hsame.timersKept ⟨Nat.le_succ _, fun i t ht => .inl ⟨t, ht, rfl, id⟩⟩
  | unlock hsame => exact (hsame.timersKept (.refl _ _)).schedule
  | fires => exact absurd rfl (hquiet _)
  | stale hfired => exact .set_returned hfired _
  | expired hfired hactive =>
      refine TimersKept.schedule ?_
      rw [(enqueueLocked_timers _ _).1, (enqueueLocked_timers _ _).2]
      exact .set_returned hfired _
  | flush hsame => exact hsame.timersKept (enqueueActive_timers s .manual).schedule
  | returns => exact .refl _ _
  | advance _ _ _ _ _ hsame => exact hsame.timersKept (.refl _ _)
  | complete _ _ _ _ hsame => exact (hsame.timersKept (.refl _ _)).schedule

/-! ## Batches -/

/-- Every batch satisfies `q`, which looks at its name and reason only. -/
structure AllBatches (q : Nat → Option FlushReason → Prop) (s : Batcher α ε) : Prop where
  active : ∀ batch ∈ s.active, q batch.id batch.reason
  queue : ∀ batch ∈ s.queue, q batch.id batch.reason
  runners : ∀ runner ∈ s.runners, q runner.batch.id runner.batch.reason

namespace AllBatches

variable {q : Nat → Option FlushReason → Prop} {s s' : Batcher α ε}

theorem mono {q' : Nat → Option FlushReason → Prop} (h : s.AllBatches q)
    (himp : ∀ id reason, q id reason → q' id reason) : s.AllBatches q' :=
  ⟨fun batch hbatch => himp _ _ (h.active batch hbatch),
    fun batch hbatch => himp _ _ (h.queue batch hbatch),
    fun runner hrunner => himp _ _ (h.runners runner hrunner)⟩

theorem congr (hsame : s.SameBatches s') (h : s.AllBatches q) : s'.AllBatches q := by
  refine ⟨?_, ?_, ?_⟩
  · rw [hsame.active]
    exact h.active
  · rw [hsame.queue]
    exact h.queue
  · rw [hsame.runners]
    exact h.runners

theorem schedule (h : s.AllBatches q) : s.schedule.AllBatches q := by
  obtain ⟨batches, rest, hregroup, heq, -⟩ := s.schedule_spec
  have hnamed : ∀ batch ∈ batches ++ rest, q batch.id batch.reason := by
    intro batch hbatch
    obtain ⟨old, hold, hid, hreason⟩ := hregroup.exists_named hbatch
    rw [← hid, ← hreason]
    exact h.queue old hold
  rw [heq]
  refine ⟨h.active, fun batch hbatch => hnamed batch (List.mem_append_right _ hbatch), ?_⟩
  intro runner hrunner
  rcases List.mem_append.mp hrunner with hrunner | hrunner
  · exact h.runners runner hrunner
  · obtain ⟨batch, hbatch, rfl⟩ := List.mem_map.mp hrunner
    exact hnamed batch (List.mem_append_left _ hbatch)

theorem enqueueLocked (h : s.AllBatches q) {batch : Option (CopyBatch α)}
    (hbatch : ∀ b ∈ batch, q b.id b.reason) : (s.enqueueLocked batch).AllBatches q := by
  unfold Batcher.enqueueLocked
  split
  · exact h
  · rename_i batch
    split
    · exact h
    · refine ⟨h.active, ?_, h.runners⟩
      intro b hb
      rcases List.mem_append.mp hb with hb | hb
      · exact h.queue b hb
      · rw [List.mem_singleton.mp hb]
        exact hbatch batch rfl

theorem enqueueActive (h : s.AllBatches q) {reason : FlushReason}
    (hreason : ∀ batch ∈ s.active, q batch.id (some reason)) :
    (s.enqueueActive reason).AllBatches q := by
  cases hactive : s.active with
  | none =>
      rw [enqueueActive_of_none hactive]
      exact h
  | some batch =>
      have hdetached : AllBatches q (stopTimer { s with active := none } batch.timer) := by
        unfold stopTimer
        split <;> exact ⟨by simp, h.queue, h.runners⟩
      simp only [Batcher.enqueueActive, detachActiveLocked, hactive]
      refine hdetached.enqueueLocked ?_
      rintro _ ⟨⟩
      exact hreason batch hactive

theorem appendToActive {active : CopyBatch α} (h : s.AllBatches q)
    (hopen : q active.id active.reason) (hfull : q active.id (some .full)) (rows : List α)
    (request : Nat) : (s.appendToActive active rows request).1.AllBatches q := by
  have hgrown : ∀ taken, AllBatches q
      (addPart { s with active := some (active.append request taken) } request) := by
    intro taken
    refine ⟨?_, h.queue, h.runners⟩
    rintro _ ⟨⟩
    exact hopen
  simp only [Batcher.appendToActive]
  generalize rows.take _ = taken
  split
  · refine (hgrown taken).enqueueActive ?_
    rintro _ ⟨⟩
    exact hfull
  · exact hgrown taken

theorem appendRequestLocked (h : s.AllBatches q) (hopen : ∀ batch ∈ s.active, q batch.id none)
    (hdetach : ∀ id reason, reason ≠ .linger → q id none → q id (some reason)) {rows : List α}
    {request : Nat}
    (hfresh : s.nextBatch < (s.appendRequestLocked rows request).1.nextBatch →
      q s.nextBatch none) : (s.appendRequestLocked rows request).1.AllBatches q := by
  cases hcurrent : s.active with
  | none =>
      simp only [Batcher.appendRequestLocked, hcurrent] at hfresh ⊢
      have hgrows := appendToActive_timers s.openBatchLocked.1 s.openBatchLocked.2 rows request
      have hnew := hfresh hgrows.nextBatch
      have hopened : AllBatches q s.openBatchLocked.1 := by
        refine ⟨?_, h.queue, h.runners⟩
        rintro _ ⟨⟩
        exact hnew
      exact hopened.appendToActive hnew (hdetach s.nextBatch .full (by simp) hnew) rows request
  | some active =>
      simp only [Batcher.appendRequestLocked, hcurrent]
      have hfull := hdetach _ .full (by simp) (hopen active hcurrent)
      exact h.appendToActive (h.active active hcurrent) hfull rows request

/-- A goroutine of `runBatch` goes on with its batch. -/
theorem setRunner (h : s.AllBatches q) {i : Nat} {runner runner' : Runner α ε}
    (hrunner : s.runners[i]? = some runner) (hbatch : runner'.batch = runner.batch) :
    ∀ r ∈ s.runners.set i runner', q r.batch.id r.batch.reason := by
  intro r hr
  rcases List.mem_or_eq_of_mem_set hr with hr | rfl
  · exact h.runners r hr
  · rw [hbatch]
    exact h.runners runner (List.mem_of_getElem? hrunner)

/--
The rule for `q`: it holds of a batch that is opened, is kept when a batch is detached,
and is kept when a timer that has fired detaches its batch.
-/
theorem step (hactive : s.ActiveInv) (h : s.AllBatches q)
    (hfresh : s.nextBatch < s'.nextBatch → q s.nextBatch none)
    (hdetach : ∀ id reason, reason ≠ .linger → q id none → q id (some reason))
    (hlinger : ∀ (timer id : Nat), s.timers[timer]? = some ⟨id, .fired⟩ → q id none →
      q id (some .linger))
    {action : Action α ε} (hstep : s.step action = some s') : s'.AllBatches q := by
  have hopen : ∀ batch ∈ s.active, q batch.id none := by
    intro batch hbatch
    have := h.active batch hbatch
    rwa [hactive.reason batch hbatch] at this
  have hmanual : ∀ batch ∈ s.active, q batch.id (some .manual) := fun batch hbatch =>
    hdetach _ _ (by simp) (hopen batch hbatch)
  cases step_cases hstep with
  | idle hsame => exact h.congr hsame
  | append rows request hsame =>
      refine (h.appendRequestLocked hopen hdetach fun hlt => hfresh ?_).congr hsame
      rwa [hsame.nextBatch]
  | unbatched parts hsame =>
      have hnew := hfresh (by rw [hsame.nextBatch]; exact Nat.lt_succ_self _)
      refine congr hsame ⟨h.active, ?_, h.runners⟩
      intro batch hbatch
      rcases List.mem_append.mp hbatch with hbatch | hbatch
      · exact h.queue batch hbatch
      · rw [List.mem_singleton.mp hbatch]
        exact hdetach _ _ (by simp) hnew
  | unlock hsame => exact (h.congr hsame).schedule
  | fires => exact ⟨h.active, h.queue, h.runners⟩
  | stale => exact ⟨h.active, h.queue, h.runners⟩
  | @expired timer batch hfired hcurrent =>
      have hempty : AllBatches q { s with
          timers := s.timers.set timer ⟨batch.id, .returned⟩, active := none } :=
        ⟨by simp, h.queue, h.runners⟩
      refine (hempty.enqueueLocked ?_).schedule
      rintro _ ⟨⟩
      exact hlinger timer batch.id hfired (hopen batch hcurrent)
  | flush hsame => exact (h.enqueueActive hmanual).schedule.congr hsame
  | returns hrunner hbatch => exact ⟨h.active, h.queue, h.setRunner hrunner hbatch⟩
  | advance _ hrunner hbatch _ _ hsame =>
      exact congr hsame ⟨h.active, h.queue, h.setRunner hrunner hbatch⟩
  | complete hrunner hbatch _ _ hsame =>
      exact (congr hsame ⟨h.active, h.queue, h.setRunner hrunner hbatch⟩).schedule

end AllBatches

/-! ## Goroutines -/

theorem schedule_runners (s : Batcher α ε) :
    ∃ batches : List (CopyBatch α),
      s.schedule.runners = s.runners ++ batches.map Runner.start := by
  obtain ⟨batches, rest, -, heq, -⟩ := s.schedule_spec
  rw [heq]
  exact ⟨batches, rfl⟩

@[simp] theorem enqueueLocked_runners (s : Batcher α ε) (batch : Option (CopyBatch α)) :
    (s.enqueueLocked batch).runners = s.runners := by
  unfold enqueueLocked
  split
  · rfl
  · split <;> rfl

@[simp] theorem enqueueActive_runners (s : Batcher α ε) (reason : FlushReason) :
    (s.enqueueActive reason).runners = s.runners := by
  cases hactive : s.active with
  | none => rw [enqueueActive_of_none hactive]
  | some batch =>
      simp only [enqueueActive, detachActiveLocked, hactive, enqueueLocked_runners]
      unfold stopTimer
      split <;> rfl

theorem appendToActive_runners (s : Batcher α ε) (active : CopyBatch α) (rows : List α)
    (request : Nat) : (s.appendToActive active rows request).1.runners = s.runners := by
  simp only [appendToActive]
  rw [apply_ite Batcher.runners, enqueueActive_runners, ite_self]
  rfl

@[simp] theorem appendRequestLocked_runners (s : Batcher α ε) (rows : List α)
    (request : Nat) : (s.appendRequestLocked rows request).1.runners = s.runners := by
  obtain ⟨batch, timers, nextBatch, -, heq⟩ := s.appendRequestLocked_eq
  rw [heq, appendToActive_runners]

/-- New goroutines start; the one that a step belongs to may go on with its batch. -/
inductive RunnersStep (target : Option Nat) (runners runners' : List (Runner α ε)) : Prop
  | start (batches : List (CopyBatch α)) :
      runners' = runners ++ batches.map Runner.start → RunnersStep target runners runners'
  | advance (i : Nat) (runner runner' : Runner α ε) (batches : List (CopyBatch α)) :
      target = some i → runners[i]? = some runner → runner'.batch = runner.batch →
      runner'.outcome = runner.outcome → runner'.phase ≠ .copying →
      runners' = runners.set i runner' ++ batches.map Runner.start →
      RunnersStep target runners runners'

theorem RunnersStep.length_le {target : Option Nat} {runners runners' : List (Runner α ε)}
    (h : RunnersStep target runners runners') : runners.length ≤ runners'.length := by
  cases h with
  | start batches heq => simp [heq]
  | advance i runner runner' batches _ _ _ _ _ heq => simp [heq]

/-- A goroutine after the step is one from before it, the one that moved, or a new one. -/
theorem RunnersStep.getElem?_cases {target : Option Nat} {runners runners' : List (Runner α ε)}
    (h : RunnersStep target runners runners') {j : Nat} {next : Runner α ε}
    (hnext : runners'[j]? = some next) :
    (∃ runner, runners[j]? = some runner ∧ (next = runner ∨
      target = some j ∧ next.batch = runner.batch ∧ next.outcome = runner.outcome)) ∨
    (runners.length ≤ j ∧ next.phase = .copying) := by
  have happended : ∀ {old : List (Runner α ε)} {batches : List (CopyBatch α)},
      (old ++ batches.map Runner.start)[j]? = some next →
      old[j]? = some next ∨ (old.length ≤ j ∧ next.phase = .copying) := by
    intro old batches hget
    rcases Nat.lt_or_ge j old.length with hlt | hge
    · exact .inl (by rwa [List.getElem?_append_left hlt] at hget)
    · rw [List.getElem?_append_right hge, List.getElem?_map] at hget
      obtain ⟨batch, -, rfl⟩ := Option.map_eq_some_iff.mp hget
      exact .inr ⟨hge, rfl⟩
  cases h with
  | start batches heq =>
      rw [heq] at hnext
      rcases happended hnext with hold | hnew
      · exact .inl ⟨next, hold, .inl rfl⟩
      · exact .inr hnew
  | advance i runner runner' batches htarget hrunner hbatch houtcome _ heq =>
      rw [heq] at hnext
      rcases happended hnext with hold | ⟨hge, hphase⟩
      · rcases getElem?_set_cases hold with ⟨rfl, rfl⟩ | ⟨-, hold⟩
        · exact .inl ⟨runner, hrunner, .inr ⟨htarget, hbatch, houtcome⟩⟩
        · exact .inl ⟨next, hold, .inl rfl⟩
      · exact .inr ⟨by simpa using hge, hphase⟩

theorem RunnersStep.schedule {target : Option Nat} {runners : List (Runner α ε)}
    {s : Batcher α ε} (h : RunnersStep target runners s.runners) :
    RunnersStep target runners s.schedule.runners := by
  obtain ⟨more, hmore⟩ := s.schedule_runners
  cases h with
  | start batches heq =>
      refine .start (batches ++ more) ?_
      rw [hmore, heq, List.map_append, List.append_assoc]
  | advance i runner runner' batches htarget hrunner hbatch houtcome hphase heq =>
      refine .advance i runner runner' (batches ++ more) htarget hrunner hbatch houtcome hphase ?_
      rw [hmore, heq, List.map_append, List.append_assoc]

theorem RunnersStep.of_eq {target : Option Nat} {runners runners' : List (Runner α ε)}
    (h : runners' = runners) : RunnersStep target runners runners' :=
  .start [] (by simpa using h)

theorem step_runners {s s' : Batcher α ε} {action : Action α ε}
    (hquiet : ∀ runner count err, action ≠ .copyReturns runner count err)
    (hstep : s.step action = some s') : RunnersStep action.runner? s.runners s'.runners := by
  cases step_cases hstep with
  | idle hsame => exact .of_eq hsame.runners
  | append rows request hsame =>
      exact .of_eq (hsame.runners.trans (appendRequestLocked_runners s rows request))
  | unbatched parts hsame => exact .of_eq hsame.runners
  | unlock hsame => exact (RunnersStep.of_eq hsame.runners).schedule
  | fires => exact .of_eq rfl
  | stale => exact .of_eq rfl
  | expired =>
      refine RunnersStep.schedule (.of_eq ?_)
      exact enqueueLocked_runners _ _
  | flush hsame =>
      rw [hsame.runners]
      exact (RunnersStep.of_eq (enqueueActive_runners s .manual)).schedule
  | returns => exact absurd rfl (hquiet _ _ _)
  | advance htarget hrunner hbatch houtcome hphase hsame =>
      exact .advance _ _ _ [] htarget hrunner hbatch houtcome hphase (by simpa using hsame.runners)
  | complete hrunner hbatch houtcome hphase hsame =>
      refine RunnersStep.schedule ?_
      exact .advance _ _ _ [] rfl hrunner hbatch houtcome hphase (by simpa using hsame.runners)

end Batcher

end PgMesh.Copy
