import PgMesh.Copy.Capacity

/-!
# Boundaries of the physical batches

A step puts at most one batch behind the queue and then takes batches from
its head.  The sizes of the queued batches follow from the reason they were
queued for, and with them the sizes of what is dispatched.  The parts of a
batch are those of coalesced submissions, or it is one unbatched submission.
-/

namespace PgMesh.Copy

open PgMesh.Foundation

variable {α ε : Type}

namespace Batcher

/-! ## Sizes -/

structure Queued (config : BatcherConfig) (batch : CopyBatch α) : Prop where
  reason : batch.reason ≠ none
  rows : batch.rows ≠ []
  full : batch.reason = some .full → 0 < config.maxRowsPerBatch ∧
    (batch.rows.length : Int) = config.maxRowsPerBatch
  below : batch.reason = some .linger ∨ batch.reason = some .manual →
    0 < config.maxRowsPerBatch →
      (batch.rows.length : Int) < config.maxRowsPerBatch

structure Sized (config : BatcherConfig) (batch : CopyBatch α) : Prop where
  reason : batch.reason ≠ none
  rows : batch.rows ≠ []
  fits : batch.reason ≠ some .unbatched → Fits config batch.rows.length

theorem Queued.takeable {config : BatcherConfig} {batch : CopyBatch α}
    (h : Queued config batch) : Takeable config batch := by
  refine ⟨h.reason, fun hlinger hbounded => ?_⟩
  have := h.below (.inl hlinger) hbounded
  omega

theorem Queued.sized {config : BatcherConfig} {batch : CopyBatch α}
    (h : Queued config batch) : Sized config batch := by
  refine ⟨h.reason, h.rows, fun hreason hbounded => ?_⟩
  cases hr : batch.reason with
  | none => exact absurd hr h.reason
  | some reason =>
      cases reason with
      | full =>
          have := (h.full hr).2
          omega
      | linger =>
          have := h.below (.inl hr) hbounded
          omega
      | manual =>
          have := h.below (.inr hr) hbounded
          omega
      | unbatched => exact absurd hr hreason

theorem sized_of_taken {config : BatcherConfig}
    {queue batches rest : List (CopyBatch α)} (h : Taken config queue batches rest)
    (hqueue : ∀ batch ∈ queue, Queued config batch) :
    (∀ batch ∈ batches, Sized config batch) ∧
      ∀ batch ∈ rest, Queued config batch := by
  induction h with
  | stop queue => exact ⟨by simp, hqueue⟩
  | single batch _ _ ih =>
      rw [List.forall_mem_cons] at hqueue ⊢
      obtain ⟨hbatches, hrest⟩ := ih hqueue.2
      exact ⟨⟨hqueue.1.sized, hbatches⟩, hrest⟩
  | merged first group hlinger hfits _ _ ih =>
      rw [List.forall_mem_append, List.forall_mem_cons] at hqueue
      rw [List.forall_mem_cons]
      obtain ⟨hbatches, hrest⟩ := ih hqueue.2
      have hfirst := hqueue.1.1
      refine ⟨⟨⟨hfirst.reason, ?_, fun _ => hfits⟩, hbatches⟩, hrest⟩
      exact CopyBatch.concat_rows_ne_nil group hfirst.rows

/-! ## What a step dispatches -/

/--
The step puts at most one batch behind the queue, takes batches from the head
of the queue, and dispatches them behind those already dispatched.
-/
def Dispatches (s s' : Batcher α ε) : Prop :=
  ∃ enqueued batches, enqueued.length ≤ 1 ∧
    (∀ batch ∈ enqueued, Queued s.config batch) ∧
    Taken s.config (s.queue ++ enqueued) batches s'.queue ∧
    s'.dispatched = s.dispatched ++ batches

theorem Dispatches.idle {s s' : Batcher α ε} (hqueue : s'.queue = s.queue)
    (hdispatched : s'.dispatched = s.dispatched) : Dispatches s s' := by
  refine ⟨[], [], by simp, by simp, ?_, by simpa using hdispatched⟩
  rw [hqueue, List.append_nil]
  exact .stop _

theorem Dispatches.enqueue {s s' : Batcher α ε} {batch : CopyBatch α}
    (hbatch : Queued s.config batch) (hqueue : s'.queue = s.queue ++ [batch])
    (hdispatched : s'.dispatched = s.dispatched) : Dispatches s s' := by
  refine ⟨[batch], [], by simp, by simpa using hbatch, ?_, by simpa using hdispatched⟩
  rw [hqueue]
  exact .stop _

theorem Dispatches.schedule {s t : Batcher α ε} {enqueued : List (CopyBatch α)}
    (hqueued : ∀ batch ∈ s.queue, Queued s.config batch)
    (hlength : enqueued.length ≤ 1)
    (henqueued : ∀ batch ∈ enqueued, Queued s.config batch)
    (hconfig : t.config = s.config) (hqueue : t.queue = s.queue ++ enqueued)
    (hdispatched : t.dispatched = s.dispatched) : Dispatches s t.schedule := by
  have htakeable : ∀ batch ∈ t.queue, Takeable t.config batch := by
    rw [hqueue, hconfig, List.forall_mem_append]
    exact ⟨fun b hb => (hqueued b hb).takeable, fun b hb => (henqueued b hb).takeable⟩
  obtain ⟨batches, rest, htaken, heq⟩ := t.schedule_taken htakeable
  rw [hconfig, hqueue] at htaken
  refine ⟨enqueued, batches, hlength, henqueued, ?_, ?_⟩
  · rw [heq]
    exact htaken
  · rw [heq, ← hdispatched]
    simp [dispatched, Runner.start, Function.comp_def]

theorem Dispatches.reschedule {s t : Batcher α ε}
    (hqueued : ∀ batch ∈ s.queue, Queued s.config batch) (hconfig : t.config = s.config)
    (hqueue : t.queue = s.queue) (hdispatched : t.dispatched = s.dispatched) :
    Dispatches s t.schedule := by
  have hsame : t.queue = s.queue ++ [] := by rw [hqueue, List.append_nil]
  have hnone : ([] : List (CopyBatch α)).length ≤ 1 := Nat.zero_le 1
  exact .schedule hqueued hnone (by simp) hconfig hsame hdispatched

@[simp] theorem rows_detached (batch : CopyBatch α) (reason : FlushReason) :
    (batch.detached reason).rows = batch.rows := rfl

theorem ActiveInv.queued {s : Batcher α ε} (h : s.ActiveInv) {batch : CopyBatch α}
    (hactive : s.active = some batch) {reason : FlushReason}
    (hreason : reason = .linger ∨ reason = .manual) :
    Queued s.config (batch.detached reason) := by
  refine ⟨by simp [CopyBatch.detached], ?_, ?_, fun _ => h.limit batch hactive⟩
  · rw [rows_detached]
    exact h.rows_ne_nil hactive
  · rcases hreason with rfl | rfl <;> simp [CopyBatch.detached]

/-- A call of `submit` adds to the queue; it takes nothing while it holds the lock. -/
theorem dispatches_of_held {s s' : Batcher α ε} (held : s.lock ≠ none)
    (hmove : Move s s') : Dispatches s s' := by
  cases hmove with
  | @fill holder batch timers timers' nextBatch rowCount _ coalesce positive within
      current full =>
      have hqueued : Queued s.config
          ((batch.append holder.request (holder.rows.take rowCount)).detached .full) := by
        refine ⟨by simp [CopyBatch.detached], ?_, fun _ => full, by
          simp [CopyBatch.detached]⟩
        rw [rows_detached]
        intro hnil
        have hpos := full.1
        have hlength := full.2
        rw [hnil, List.length_nil] at hlength
        omega
      exact .enqueue hqueued rfl rfl
  | unbatched _ coalesce nonempty =>
      exact .enqueue ⟨by simp, by simpa [CopyBatch.rows] using nonempty, by simp,
        by simp⟩ rfl rfl
  | accept free => exact absurd free held
  | detach free => exact absurd free held
  | schedule free => exact absurd free held
  | retire free => exact absurd free held
  | copyReturns runner => exact .idle rfl (map_batch_set runner rfl)
  | finishPart runner => exact .idle rfl (map_batch_set runner rfl)
  | finishLast runner => exact .idle rfl (map_batch_set runner rfl)
  | resolve runner => exact .idle rfl (map_batch_set runner rfl)
  | _ => exact .idle rfl rfl

theorem step_dispatches {s s' : Batcher α ε} {action : Action α ε} (h : s.ActiveInv)
    (hqueued : ∀ batch ∈ s.queue, Queued s.config batch)
    (hstep : s.step action = some s') : Dispatches s s' := by
  cases action with
  | place =>
      obtain ⟨held, hmove⟩ := place_move h hstep
      exact dispatches_of_held held hmove
  | unlock =>
      simp only [Batcher.step, unlock] at hstep
      split at hstep
      · cases hstep
      · split at hstep
        · cases hstep
          exact .reschedule hqueued rfl rfl rfl
        · cases hstep
  | flushExpiredBatch timer =>
      simp only [Batcher.step, flushExpiredBatch] at hstep
      split at hstep
      · split at hstep
        · cases hstep
          exact .idle rfl rfl
        · rename_i batch hactive
          split at hstep
          · cases hstep
            exact .idle rfl rfl
          · have hbatch := h.queued hactive (.inl rfl : FlushReason.linger = .linger ∨ _)
            have hlength : ¬(batch.detached .linger).rows.length = 0 :=
              fun hnil => hbatch.rows (List.length_eq_zero_iff.mp hnil)
            simp only [enqueueLocked, if_neg hlength] at hstep
            cases hstep
            exact .schedule hqueued (by simp) (by simpa using hbatch) rfl rfl rfl
      · cases hstep
  | flushAsync order =>
      simp only [Batcher.step, flushAsync] at hstep
      split at hstep
      · cases hstep
      · split at hstep
        · cases hstep
          cases hactive : s.active with
          | none =>
              rw [enqueueActive_of_none hactive]
              exact .reschedule hqueued rfl rfl rfl
          | some batch =>
              have hbatch :=
                h.queued hactive (.inr rfl : _ ∨ FlushReason.manual = .manual)
              obtain ⟨timers, hdetach⟩ :=
                enqueueActive_of_active hactive hbatch.rows .manual
              rw [hdetach]
              exact .schedule (t := { s with
                active := none
                queue := s.queue ++ [batch.detached .manual]
                timers := timers }) hqueued (by simp) (by simpa using hbatch) rfl rfl rfl
        · cases hstep
  | complete runner =>
      simp only [Batcher.step, complete] at hstep
      split at hstep
      · rename_i hrunner
        cases hstep
        exact .reschedule hqueued rfl rfl (map_batch_set hrunner rfl)
      · cases hstep
  | _ =>
      have hquiet := quiet_step rfl hstep
      exact .idle hquiet.queue hquiet.dispatched

structure SizeInv (s : Batcher α ε) : Prop where
  queue : ∀ batch ∈ s.queue, Queued s.config batch
  dispatched : ∀ batch ∈ s.dispatched, Sized s.config batch

theorem initial_sizeInv (config : BatcherConfig) :
    (Batcher.initial config : Batcher α ε).SizeInv where
  queue := nofun
  dispatched := nofun

theorem config_of_moves {s s' : Batcher α ε} (hmoves : Moves s s') :
    s'.config = s.config := by
  induction hmoves with
  | refl => rfl
  | tail _ hmove ih => rw [config_move hmove, ih]

theorem SizeInv.step {s s' : Batcher α ε} {action : Action α ε} (h : s.SizeInv)
    (hactive : s.ActiveInv) (hstep : s.step action = some s') : s'.SizeInv := by
  obtain ⟨enqueued, batches, -, henqueued, htaken, hdispatched⟩ :=
    step_dispatches hactive h.queue hstep
  obtain ⟨hbatches, hrest⟩ := sized_of_taken htaken
    (List.forall_mem_append.mpr ⟨h.queue, henqueued⟩)
  constructor
  · rw [config_of_moves (step_moves hactive hstep)]
    exact hrest
  · rw [config_of_moves (step_moves hactive hstep), hdispatched]
    exact List.forall_mem_append.mpr ⟨h.dispatched, hbatches⟩

/-- The loop of `appendRequestLocked` ends, after at most one iteration for each row. -/
theorem place_loop {s : Batcher α ε} (h : s.ActiveInv) {holder : Submitting α}
    (held : s.lock = some holder) :
    ∃ n s', n ≤ holder.rows.length ∧
      runFrom Batcher.step s (List.replicate n .place) = some s' ∧
      s'.lock = some { holder with rows := [] } := by
  -- By induction on a bound of the number of rows that are left.
  generalize hk : holder.rows.length = k
  induction k using Nat.strong_induction_on generalizing s holder with
  | _ k ih =>
      by_cases hrows : holder.rows = []
      · refine ⟨0, s, by omega, rfl, ?_⟩
        rw [held, ← hrows]
      · obtain ⟨next, rowCount, hplace, hmove, hpos, hle, hlock⟩ :=
          place_spec h held hrows
        have hleft : (holder.rows.drop rowCount).length = k - rowCount := by
          rw [List.length_drop, hk]
        obtain ⟨n, s', hn, hrun, hlock'⟩ :=
          ih (k - rowCount) (by omega) (h.move hmove) hlock hleft
        refine ⟨n + 1, s', by omega, ?_, hlock'⟩
        rw [List.replicate_succ]
        exact runFrom_cons_eq_some.mpr ⟨next, hplace, hrun⟩

/-! ## Unbatched submissions -/

end Batcher

/-- The parts of each unbatched batch. -/
def unbatchedParts (batches : List (CopyBatch α)) : List (List (CopyPart α)) :=
  (batches.filter (!·.coalesced)).map CopyBatch.parts

/-- The unbatched submission that still has to be put into the queue. -/
def unbatchedUnplaced : Option (Submitting α) → List (List (CopyPart α))
  | none => []
  | some holder =>
      if holder.coalesce || holder.rows.isEmpty then []
      else [[⟨holder.request, holder.rows⟩]]

/-- Each unbatched submission as the one part of a batch, in acceptance order. -/
def unbatchedAccepted (accepted : List (Submission α)) : List (List (CopyPart α)) :=
  (accepted.zipIdx.filter (!·.1.coalesce)).map fun (submission, request) =>
    [⟨request, submission.rows⟩]

@[simp] theorem unbatchedParts_append (first second : List (CopyBatch α)) :
    unbatchedParts (first ++ second) =
      unbatchedParts first ++ unbatchedParts second := by
  simp [unbatchedParts]

theorem unbatchedParts_singleton (batch : CopyBatch α) :
    unbatchedParts [batch] = if batch.coalesced then [] else [batch.parts] := by
  cases h : batch.coalesced <;> simp [unbatchedParts, h]

theorem unbatchedAccepted_append_singleton (accepted : List (Submission α))
    (submission : Submission α) :
    unbatchedAccepted (accepted ++ [submission]) =
      unbatchedAccepted accepted ++
        if submission.coalesce then [] else [[⟨accepted.length, submission.rows⟩]] := by
  cases h : submission.coalesce <;>
    simp [unbatchedAccepted, List.zipIdx_append, h]

theorem mem_unbatchedAccepted {accepted : List (Submission α)}
    {parts : List (CopyPart α)} :
    parts ∈ unbatchedAccepted accepted ↔ ∃ request rows,
      accepted[request]? = some ⟨rows, false⟩ ∧ parts = [⟨request, rows⟩] := by
  simp only [unbatchedAccepted, List.mem_map, List.mem_filter, Prod.exists,
    List.mem_zipIdx_iff_getElem?]
  constructor
  · rintro ⟨⟨rows, coalesce⟩, request, ⟨hget, hcoalesce⟩, rfl⟩
    cases coalesce with
    | true => cases hcoalesce
    | false => exact ⟨request, rows, hget, rfl⟩
  · rintro ⟨request, rows, hget, rfl⟩
    exact ⟨⟨rows, false⟩, request, ⟨hget, rfl⟩, rfl⟩

theorem Regroup.unbatchedParts_eq {queue queue' : List (CopyBatch α)}
    (h : Regroup queue queue') : unbatchedParts queue' = unbatchedParts queue := by
  induction h with
  | nil => rfl
  | @keep batch queue queue' _ ih =>
      rw [← List.singleton_append, unbatchedParts_append, ih, ← unbatchedParts_append,
        List.singleton_append]
  | merge hbatch hnext _ ih =>
      rw [ih]
      simp [unbatchedParts, CopyBatch.coalesced, CopyBatch.merge, hbatch, hnext]

namespace Batcher

/-- The unbatched batches are the unbatched submissions, one for one. -/
def UnbatchedInv (s : Batcher α ε) : Prop :=
  unbatchedParts s.dispatched ++ unbatchedParts s.queue ++ unbatchedUnplaced s.lock =
    unbatchedAccepted s.accepted

theorem UnbatchedInv.congr {s s' : Batcher α ε} (h : s.UnbatchedInv)
    (hdispatched : s'.dispatched = s.dispatched) (hqueue : s'.queue = s.queue)
    (hlock : s'.lock = s.lock) (haccepted : s'.accepted = s.accepted) :
    s'.UnbatchedInv := by
  rw [UnbatchedInv, hdispatched, hqueue, hlock, haccepted]
  exact h

theorem UnbatchedInv.move {s s' : Batcher α ε} (h : s.UnbatchedInv)
    (hrows : s.RowsInv) (hmove : Move s s') : s'.UnbatchedInv := by
  unfold UnbatchedInv at h
  cases hmove with
  | @accept rows coalesce free nonempty =>
      rw [free] at h
      simp only [UnbatchedInv, accept, unbatchedAccepted_append_singleton, ← h,
        hrows.length, dispatched]
      cases coalesce <;> simp [unbatchedUnplaced, nonempty]
  | extend held coalesce nonempty current room =>
      rw [held] at h
      simp only [UnbatchedInv, ← h, dispatched]
      simp [unbatchedUnplaced, coalesce]
  | fill held coalesce positive within current full =>
      rw [held] at h
      simp only [UnbatchedInv, ← h, dispatched, unbatchedParts_append,
        unbatchedParts_singleton]
      simp [unbatchedUnplaced, coalesce, CopyBatch.coalesced, CopyBatch.detached]
  | unbatched held coalesce nonempty =>
      rw [held] at h
      simp only [UnbatchedInv, ← h, dispatched, unbatchedParts_append,
        unbatchedParts_singleton]
      simp [unbatchedUnplaced, coalesce, nonempty, CopyBatch.coalesced]
  | release held placed =>
      rw [held] at h
      simp only [UnbatchedInv, ← h, dispatched]
      simp [unbatchedUnplaced, placed]
  | detach free active cause =>
      simp only [UnbatchedInv, ← h, dispatched, unbatchedParts_append,
        unbatchedParts_singleton]
      rcases cause with rfl | rfl <;> simp [CopyBatch.coalesced, CopyBatch.detached]
  | schedule free regroup capacity =>
      have hqueue := regroup.unbatchedParts_eq
      rw [unbatchedParts_append] at hqueue
      simp only [UnbatchedInv, ← h, ← hqueue, dispatched, List.map_append,
        map_batch_start, unbatchedParts_append, List.append_assoc]
  | copyReturns runner => exact UnbatchedInv.congr h (map_batch_set runner rfl) rfl rfl rfl
  | finishPart runner => exact UnbatchedInv.congr h (map_batch_set runner rfl) rfl rfl rfl
  | finishLast runner => exact UnbatchedInv.congr h (map_batch_set runner rfl) rfl rfl rfl
  | resolve runner => exact UnbatchedInv.congr h (map_batch_set runner rfl) rfl rfl rfl
  | retire free runner => exact UnbatchedInv.congr h (map_batch_set runner rfl) rfl rfl rfl
  | _ => exact UnbatchedInv.congr h rfl rfl rfl rfl

/-- The submissions that have a row in a batch. -/
def contributors (s : Batcher α ε) (batch : CopyBatch α) : List Nat :=
  (List.range s.accepted.length).filter (· ∈ batch.tagged.map Prod.fst)

end Batcher

/-- What `runBatch` passes to the observers, without the durations. -/
structure CopyBatchObservation (ε : Type) where
  rowCount : Nat
  submissionCount : Nat
  reason : Option FlushReason
  err : Option (GoError ε)

/-- The observers are called once the physical COPY has returned. -/
def Runner.observation (r : Runner α ε) : Option (CopyBatchObservation ε) :=
  r.outcome.map fun _ =>
    ⟨r.batch.rows.length, r.batch.requests.length, r.batch.reason, r.err⟩

open Batcher

namespace Reachable

theorem sizeInv {s : Batcher α ε} (h : Reachable s) : s.SizeInv := by
  obtain ⟨config, start, hnew, hreach⟩ := h
  have hstart : Reachable start ∧ start.SizeInv := by
    obtain ⟨accepted, rfl⟩ := newCopyBatcher_eq_ok hnew
    exact ⟨⟨config, _, hnew, .refl _⟩, initial_sizeInv accepted⟩
  have hinv : Reachable s ∧ s.SizeInv :=
    hreach.invariant (P := fun s => Reachable s ∧ s.SizeInv) hstart
      fun ⟨hreachable, hsize⟩ hstep =>
        ⟨hreachable.trans (.single hstep), hsize.step hreachable.activeInv hstep⟩
  exact hinv.2

theorem unbatchedInv {s : Batcher α ε} (h : Reachable s) : s.UnbatchedInv := by
  have hinv := h.invariant (P := fun s => s.RowsInv ∧ s.UnbatchedInv)
    (fun config => ⟨initial_rowsInv config, rfl⟩)
    fun hactive hP hmove => ⟨RowsInv.move hactive hP.1 hmove, hP.2.move hP.1 hmove⟩
  exact hinv.2.2

end Reachable

theorem accepted_of_mem_tagged {accepted : List (Submission α)} {coalesce : Bool}
    {request : Nat} {row : α} (h : (request, row) ∈ taggedAccepted coalesce accepted) :
    ∃ rows, accepted[request]? = some ⟨rows, coalesce⟩ := by
  simp only [taggedAccepted, List.mem_flatMap, Prod.exists,
    List.mem_zipIdx_iff_getElem?] at h
  obtain ⟨⟨rows, coalesce'⟩, request', hget, hmem⟩ := h
  split at hmem
  · rename_i hclass
    obtain ⟨_, -, heq⟩ := List.mem_map.mp hmem
    cases heq
    cases hclass
    exact ⟨rows, hget⟩
  · cases hmem

namespace Reachable

/-- The requests of a coalesced batch are those of `Submit`. -/
theorem coalesced_of_mem {s : Batcher α ε} (h : Reachable s) {batch : CopyBatch α}
    (hbatch : batch ∈ s.dispatched) (hcoalesced : batch.coalesced = true)
    {request : Nat} (hrequest : request ∈ batch.requests) :
    ∃ rows, s.accepted[request]? = some ⟨rows, true⟩ := by
  obtain ⟨row, hrow⟩ :=
    (h.mem_requests_iff (List.mem_append_left _ hbatch) request).mp hrequest
  have hmem : (request, row) ∈ taggedRows true s.dispatched :=
    List.mem_flatMap.mpr
      ⟨batch, List.mem_filter.mpr ⟨hbatch, by simp [hcoalesced]⟩, hrow⟩
  have haccepted : (request, row) ∈ taggedAccepted true s.accepted := by
    rw [← h.rowsInv.rows true]
    simp [hmem]
  exact accepted_of_mem_tagged haccepted

theorem parts_of_unbatched {s : Batcher α ε} (h : Reachable s) {batch : CopyBatch α}
    (hbatch : batch ∈ s.dispatched) (hunbatched : batch.coalesced = false) :
    ∃ request rows, s.accepted[request]? = some ⟨rows, false⟩ ∧
      batch.parts = [⟨request, rows⟩] := by
  apply mem_unbatchedAccepted.mp
  have hinv : _ = unbatchedAccepted s.accepted := h.unbatchedInv
  rw [← hinv]
  refine List.mem_append_left _ (List.mem_append_left _ ?_)
  exact List.mem_map_of_mem (List.mem_filter.mpr ⟨hbatch, by simp [hunbatched]⟩)

/-- Distinct requests, each with a row, are counted by their list. -/
theorem length_contributors {s : Batcher α ε} (h : Reachable s) {batch : CopyBatch α}
    (hbatch : batch ∈ s.dispatched) :
    batch.requests.length = (s.contributors batch).length := by
  obtain ⟨runner, hrunner, rfl⟩ := List.mem_map.mp hbatch
  apply List.Perm.length_eq
  apply (List.perm_ext_iff_of_nodup (h.inv.order.runner_nodup runner hrunner)
    (List.nodup_range.filter _)).mpr
  intro request
  have hrows := h.mem_requests_iff (List.mem_append_left _ hbatch) request
  have hbound := h.inv.order.runner_bounded runner hrunner request
  simp only [List.mem_filter, List.mem_range, h.inv.ledger.length, decide_eq_true_eq,
    List.mem_map, Prod.exists, exists_and_right, exists_eq_right]
  rw [hrows] at hbound ⊢
  exact ⟨fun hrow => ⟨hbound hrow, hrow⟩, fun hrow => hrow.2⟩

end Reachable

/--
Each step dispatches from the head of the queue, in order: a full, manual or
unbatched batch by itself, or a maximal group of linger-expired neighbours.
Unbatched batches and unbatched submissions correspond one for one, with the
same rows, and no batch lists a request twice.
-/
theorem physical_batch_boundaries {s : Batcher α ε} (h : Reachable s) :
    (∀ action s', s.step action = some s' → Dispatches s s') ∧
    (unbatchedParts s.dispatched ++ unbatchedParts s.queue ++
      unbatchedUnplaced s.lock = unbatchedAccepted s.accepted) ∧
    (∀ request rows, s.accepted[request]? = some ⟨rows, false⟩ →
      ∀ batch ∈ s.dispatched, request ∈ batch.requests →
        batch.reason = some .unbatched ∧ batch.parts = [⟨request, rows⟩]) ∧
    (∀ batch ∈ s.dispatched, batch.requests.Nodup) ∧
    ∀ runner ∈ s.runners, ∀ observation ∈ runner.observation,
      observation.submissionCount = (s.contributors runner.batch).length := by
  refine ⟨?_, h.unbatchedInv, ?_, ?_, ?_⟩
  · intro action s' hstep
    exact step_dispatches h.activeInv h.sizeInv.queue hstep
  · intro request rows hget batch hbatch hrequest
    cases hclass : batch.coalesced with
    | true =>
        obtain ⟨rows', hget'⟩ := h.coalesced_of_mem hbatch hclass hrequest
        rw [hget] at hget'
        cases hget'
    | false =>
        obtain ⟨request', rows', hget', hparts⟩ := h.parts_of_unbatched hbatch hclass
        have heq : request = request' := by
          simpa [CopyBatch.requests, hparts] using hrequest
        subst heq
        rw [hget] at hget'
        cases hget'
        exact ⟨by simpa [CopyBatch.coalesced] using hclass, hparts⟩
  · intro batch hbatch
    obtain ⟨runner, hrunner, rfl⟩ := List.mem_map.mp hbatch
    exact h.inv.order.runner_nodup runner hrunner
  · intro runner hrunner observation hobservation
    obtain ⟨-, -, rfl⟩ := Option.map_eq_some_iff.mp hobservation
    exact h.length_contributors (List.mem_map_of_mem hrunner)

/--
With one slot, two batches whose linger time expires behind an unbatched
COPY are merged when its goroutine ends.
-/
def backlogTrace : List (Action Nat Unit) :=
  [.submit [9] false none none, .place, .unlock,
   .submit [1] true none none, .place, .unlock, .timerFires 0, .flushExpiredBatch 0,
   .submit [2] true none none, .place, .unlock, .timerFires 1, .flushExpiredBatch 1,
   .copyReturns 0 1 none, .finishPart 0, .resolve 0]

def backlogState : Batcher Nat Unit :=
  (runFrom Batcher.step splitStart backlogTrace).getD splitStart

theorem physical_batch_boundaries_backlog :
    backlogState.queue.map CopyBatch.rows = [[1], [2]] ∧
      ∃ s', backlogState.step (.complete 0) = some s' ∧ Dispatches backlogState s' ∧
        s'.dispatched.map CopyBatch.rows = [[9], [1, 2]] := by
  have hreachable : Reachable backlogState :=
    ⟨splitConfig, splitStart, rfl, backlogTrace, rfl⟩
  obtain ⟨hsteps, -⟩ := physical_batch_boundaries hreachable
  exact ⟨rfl, _, rfl, hsteps (.complete 0) _ rfl, rfl⟩

/--
With a row limit, every iteration of the loop of `appendRequestLocked` places
a row and the loop ends; the open batch stays below the limit, a full batch
is at the limit, and no dispatched batch of `Submit` exceeds it.
-/
theorem row_limit_and_progress {config : CopyBatchConfig} {start s : Batcher α ε}
    (hnew : newCopyBatcher config false = .ok start)
    (hrun : Reaches Batcher.step start s) (hlimit : 0 < config.maxRowsPerBatch) :
    (∀ holder ∈ s.lock, holder.coalesce = true →
      (holder.rows ≠ [] → ∃ s' rowCount, s.step .place = some s' ∧ 1 ≤ rowCount ∧
        rowCount ≤ holder.rows.length ∧
        s'.lock = some { holder with rows := holder.rows.drop rowCount }) ∧
      ∃ n s', n ≤ holder.rows.length ∧
        runFrom Batcher.step s (List.replicate n .place) = some s' ∧
        s'.lock = some { holder with rows := [] }) ∧
    (s.lock = none → ∀ batch ∈ s.active, 1 ≤ batch.rows.length ∧
      (batch.rows.length : Int) ≤ config.maxRowsPerBatch - 1) ∧
    (∀ batch ∈ s.queue, batch.reason = some .full →
      (batch.rows.length : Int) = config.maxRowsPerBatch) ∧
    ∀ batch ∈ s.dispatched, batch.reason ≠ some .unbatched →
      1 ≤ batch.rows.length ∧
        (batch.rows.length : Int) ≤ config.maxRowsPerBatch := by
  have hreachable : Reachable s := ⟨config, start, hnew, hrun⟩
  have hactive := hreachable.activeInv
  have hsize := hreachable.sizeInv
  have hconfig : s.config.maxRowsPerBatch = config.maxRowsPerBatch := by
    rw [config_of_run hnew hrun, CopyBatchConfig.normalized]
  rw [← hconfig] at hlimit ⊢
  refine ⟨?_, ?_, ?_, ?_⟩
  · intro holder held _
    refine ⟨fun hrows => ?_, place_loop hactive held⟩
    obtain ⟨s', rowCount, hplace, -, hpos, hle, hlock⟩ := place_spec hactive held hrows
    exact ⟨s', rowCount, hplace, hpos, hle, hlock⟩
  · intro _ batch hbatch
    have hbelow := hactive.limit batch hbatch hlimit
    have hpos := List.length_pos_iff.mpr (hactive.rows_ne_nil hbatch)
    omega
  · intro batch hbatch hfull
    exact ((hsize.queue batch hbatch).full hfull).2
  · intro batch hbatch hreason
    have hsized := hsize.dispatched batch hbatch
    exact ⟨List.length_pos_iff.mpr hsized.rows, hsized.fits hreason hlimit⟩

/-- The second submission of `splitTrace`, when it has just been accepted. -/
def splitHeld : Batcher Nat Unit :=
  (runFrom Batcher.step splitStart (splitTrace.take 4)).getD splitStart

theorem row_limit_and_progress_split :
    splitHeld.lock = some ⟨1, [3, 4, 5], true⟩ ∧
      ∃ n s', n ≤ 3 ∧
        runFrom Batcher.step splitHeld (List.replicate n .place) = some s' ∧
        s'.lock = some ⟨1, [], true⟩ := by
  have hnew : newCopyBatcher splitConfig false = .ok splitStart := rfl
  have hrun : Reaches Batcher.step splitStart splitHeld := ⟨splitTrace.take 4, rfl⟩
  obtain ⟨hloop, -⟩ := row_limit_and_progress hnew hrun (by decide)
  exact ⟨rfl, (hloop _ rfl rfl).2⟩

end PgMesh.Copy
