import PgMesh.Copy.Flush

/-!
# Batches on both sides of a flush

A flush that detaches an active batch leaves a batch in the line that is
never merged.  So does a flush behind a queue that ends in such a batch, and
a flush with an empty queue needs none.  A flush without an active batch,
behind a queue that ends in a linger-expired batch, leaves no boundary: the
next linger-expired batch may be merged across it.
-/

namespace PgMesh.Copy

open PgMesh.Foundation

variable {α ε : Type}

/-- The batch at the end of the list, if any, is not linger-expired. -/
def Bounded (batches : List (CopyBatch α)) : Prop :=
  ∀ last ∈ batches.getLast?, last.reason ≠ some .linger

theorem bounded_nil : Bounded ([] : List (CopyBatch α)) := nofun

theorem bounded_singleton {batch : CopyBatch α} :
    Bounded [batch] ↔ batch.reason ≠ some .linger := by
  simp [Bounded]

theorem bounded_cons_cons {first second : CopyBatch α}
    {rest : List (CopyBatch α)} :
    Bounded (first :: second :: rest) ↔ Bounded (second :: rest) := by
  simp [Bounded, List.getLast?_cons_cons]

theorem Bounded.of_append {first second : List (CopyBatch α)}
    (h : Bounded (first ++ second)) : Bounded second := by
  induction first with
  | nil => exact h
  | cons batch first ih =>
      apply ih
      cases hrest : first ++ second with
      | nil => exact bounded_nil
      | cons next rest =>
          rw [List.cons_append, hrest, bounded_cons_cons] at h
          exact h

theorem bounded_concat (batches : List (CopyBatch α)) {batch : CopyBatch α}
    (h : batch.reason ≠ some .linger) : Bounded (batches ++ [batch]) := by
  intro last hlast
  simp only [List.getLast?_concat, Option.mem_def, Option.some.injEq] at hlast
  exact hlast ▸ h

namespace Regroup

theorem eq_nil {queue queue' : List (CopyBatch α)} (h : Regroup queue queue')
    (hnil : queue' = []) : queue = [] := by
  induction h with
  | nil => rfl
  | keep batch hrest ih => cases hnil
  | merge hbatch hnext hrest ih => cases ih hnil

/-- Regrouping keeps a boundary at the end. -/
theorem bounded {queue queue' : List (CopyBatch α)}
    (h : Regroup queue queue') (hbounded : Bounded queue) : Bounded queue' := by
  induction h with
  | nil => exact bounded_nil
  | @keep batch queue queue' hrest ih =>
      cases queue' with
      | nil =>
          rw [hrest.eq_nil rfl] at hbounded
          exact hbounded
      | cons next' rest' =>
          rw [bounded_cons_cons]
          cases queue with
          | nil => cases hrest
          | cons next rest => exact ih (bounded_cons_cons.mp hbounded)
  | @merge batch next queue queue' hbatch hnext hrest ih =>
      apply ih
      rw [bounded_cons_cons] at hbounded
      cases queue with
      | nil => exact absurd hnext (bounded_singleton.mp hbounded)
      | cons third rest =>
          rw [bounded_cons_cons] at hbounded ⊢
          exact hbounded

end Regroup

/-- All requests of the batches are older than the barrier. -/
def AllBefore (barrier : Nat) (batches : List (CopyBatch α)) : Prop :=
  ∀ batch ∈ batches, ∀ r ∈ batch.requests, r < barrier

def AllAfter (barrier : Nat) (batches : List (CopyBatch α)) : Prop :=
  ∀ batch ∈ batches, ∀ r ∈ batch.requests, barrier ≤ r

theorem Regroup.allBefore {queue queue' : List (CopyBatch α)}
    (h : Regroup queue queue') {barrier : Nat} (hbefore : AllBefore barrier queue) :
    AllBefore barrier queue' := by
  intro batch hbatch r hr
  obtain ⟨source, hsource, hmem⟩ := h.mem_requests hbatch hr
  exact hbefore source hsource r hmem

theorem Regroup.allAfter {queue queue' : List (CopyBatch α)}
    (h : Regroup queue queue') {barrier : Nat} (hafter : AllAfter barrier queue) :
    AllAfter barrier queue' := by
  intro batch hbatch r hr
  obtain ⟨source, hsource, hmem⟩ := h.mem_requests hbatch hr
  exact hafter source hsource r hmem

namespace Batcher

/--
The line of batches is cut at the barrier: the queue has an older part, which
ends in a boundary, and a newer part, and no dispatched batch is mixed.
-/
structure CutAt (barrier : Nat) (s : Batcher α ε) : Prop where
  bound : barrier ≤ s.requests.length
  queue : ∃ before after, s.queue = before ++ after ∧ AllBefore barrier before ∧
    Bounded before ∧ AllAfter barrier after
  active : AllAfter barrier s.active.toList
  holder : ∀ holder ∈ s.lock, barrier ≤ holder.request
  dispatched : ∀ batch ∈ s.dispatched,
    AllBefore barrier [batch] ∨ AllAfter barrier [batch]

/-- Behind the cut, one more batch of newer requests. -/
theorem CutAt.enqueue {s : Batcher α ε} {barrier : Nat} (h : s.CutAt barrier)
    {batch : CopyBatch α} (hbatch : ∀ r ∈ batch.requests, barrier ≤ r) :
    ∃ before after, s.queue ++ [batch] = before ++ after ∧
      AllBefore barrier before ∧ Bounded before ∧ AllAfter barrier after := by
  obtain ⟨before, after, hqueue, hbefore, hbounded, hafter⟩ := h.queue
  refine ⟨before, after ++ [batch], ?_, hbefore, hbounded, ?_⟩
  · rw [hqueue, List.append_assoc]
  · intro b hb
    rcases List.mem_append.mp hb with hb | hb
    · exact hafter b hb
    · rw [List.mem_singleton.mp hb]
      exact hbatch

theorem CutAt.append {s : Batcher α ε} {barrier : Nat} (h : s.CutAt barrier)
    {holder : Submitting α} (held : s.lock = some holder)
    {batch : CopyBatch α} {timers : List Timer} {nextBatch : Nat}
    (current : s.Current batch timers nextBatch) (rows : List α) :
    ∀ r ∈ (batch.append holder.request rows).requests, barrier ≤ r := by
  intro r hr
  rw [requests_append, List.mem_append, List.mem_singleton] at hr
  rcases hr with hr | rfl
  · exact h.active batch (by simp [current.active_of_mem hr]) r hr
  · exact h.holder holder held

theorem CutAt.congr {s s' : Batcher α ε} {barrier : Nat} (h : s.CutAt barrier)
    (hlength : s'.requests.length = s.requests.length)
    (hqueue : s'.queue = s.queue) (hactive : s'.active = s.active)
    (hlock : s'.lock = s.lock) (hdispatched : s'.dispatched = s.dispatched) :
    s'.CutAt barrier := by
  constructor
  · rw [hlength]
    exact h.bound
  · rw [hqueue]
    exact h.queue
  · rw [hactive]
    exact h.active
  · rw [hlock]
    exact h.holder
  · rw [hdispatched]
    exact h.dispatched

theorem CutAt.schedule {s s' : Batcher α ε} {barrier : Nat}
    (h : s.CutAt barrier) {batches rest : List (CopyBatch α)}
    (regroup : Regroup s.queue (batches ++ rest))
    (hlength : s'.requests.length = s.requests.length)
    (hqueue : s'.queue = rest) (hactive : s'.active = s.active)
    (hlock : s'.lock = s.lock)
    (hdispatched : s'.dispatched = s.dispatched ++ batches) :
    s'.CutAt barrier := by
  obtain ⟨before, after, hsplit, hbefore, hbounded, hafter⟩ := h.queue
  rw [hsplit] at regroup
  obtain ⟨before', after', heq, hregroup, hregroup'⟩ := regroup.append_inv hbounded
  have hbefore' := hregroup.allBefore hbefore
  have hafter' := hregroup'.allAfter hafter
  have hbounded' := hregroup.bounded hbounded
  constructor
  · rw [hlength]
    exact h.bound
  · rw [hqueue]
    rcases List.append_eq_append_iff.mp heq with
      ⟨middle, hmiddle, hrest⟩ | ⟨middle, hmiddle, hrest⟩
    · -- The cut is still in the queue.
      rw [hmiddle] at hbefore' hbounded'
      refine ⟨middle, after', hrest, ?_, hbounded'.of_append, hafter'⟩
      exact fun batch hbatch => hbefore' batch (List.mem_append_right _ hbatch)
    · refine ⟨[], rest, rfl, nofun, bounded_nil, ?_⟩
      intro batch hbatch
      apply hafter' batch
      rw [hrest]
      exact List.mem_append_right _ hbatch
  · rw [hactive]
    exact h.active
  · rw [hlock]
    exact h.holder
  · intro batch hbatch
    rw [hdispatched] at hbatch
    rcases List.mem_append.mp hbatch with hbatch | hbatch
    · exact h.dispatched batch hbatch
    · have hmem : batch ∈ before' ++ after' := by
        rw [← heq]
        exact List.mem_append_left _ hbatch
      rcases List.mem_append.mp hmem with hmem | hmem
      · left
        simpa [AllBefore] using hbefore' batch hmem
      · right
        simpa [AllAfter] using hafter' batch hmem

theorem CutAt.move {s s' : Batcher α ε} {barrier : Nat} (h : s.CutAt barrier)
    (hmove : Move s s') : s'.CutAt barrier := by
  cases hmove with
  | @accept rows coalesce free nonempty =>
      refine ⟨?_, h.queue, h.active, ?_, h.dispatched⟩
      · have := h.bound
        simp [Batcher.accept]
        omega
      · rintro holder ⟨⟩
        exact h.bound
  | @extend holder batch timers nextBatch held coalesce nonempty current room =>
      refine ⟨by simpa using h.bound, h.queue, ?_, ?_, h.dispatched⟩
      · intro b hb
        rw [List.mem_singleton.mp hb]
        exact h.append held current holder.rows
      · rintro _ ⟨⟩
        exact h.holder holder held
  | @fill holder batch timers timers' nextBatch rowCount held coalesce positive
      within current full =>
      refine ⟨by simpa using h.bound, h.enqueue ?_, ?_, ?_, h.dispatched⟩
      · exact h.append held current (holder.rows.take rowCount)
      · rintro _ ⟨⟩
      · rintro _ ⟨⟩
        exact h.holder holder held
  | @unbatched holder held coalesce nonempty =>
      refine ⟨by simpa using h.bound, h.enqueue ?_, h.active, ?_, h.dispatched⟩
      · intro r hr
        simp only [CopyBatch.requests, List.map_cons, List.map_nil,
          List.mem_singleton] at hr
        rw [hr]
        exact h.holder holder held
      · rintro _ ⟨⟩
        exact h.holder holder held
  | release held placed =>
      refine ⟨h.bound, h.queue, h.active, ?_, h.dispatched⟩
      rintro _ ⟨⟩
  | @detach batch reason timers free active cause =>
      refine ⟨h.bound, h.enqueue ?_, ?_, h.holder, h.dispatched⟩
      · exact h.active batch (by simp [active])
      · rintro _ ⟨⟩
  | @schedule batches rest free regroup capacity =>
      refine h.schedule regroup rfl rfl rfl rfl ?_
      simp [Batcher.dispatched, Runner.start, Function.comp_def]
  | copyReturns runner => exact h.congr rfl rfl rfl rfl (map_batch_set runner rfl)
  | finishPart runner =>
      exact h.congr (by simp) rfl rfl rfl (map_batch_set runner rfl)
  | finishLast runner =>
      exact h.congr (by simp) rfl rfl rfl (map_batch_set runner rfl)
  | resolve runner =>
      exact h.congr (by simp) rfl rfl rfl (map_batch_set runner rfl)
  | retire free runner => exact h.congr rfl rfl rfl rfl (map_batch_set runner rfl)
  | _ => exact h.congr rfl rfl rfl rfl rfl

/-- A flush here detaches a batch, or finds a queue that needs no boundary. -/
def leavesBoundary (s : Batcher α ε) : Bool :=
  s.active.isSome ||
    match s.queue.getLast? with
    | none => true
    | some last => last.reason ≠ some .linger

theorem bounded_of_leavesBoundary {s : Batcher α ε}
    (h : s.leavesBoundary = true) (hactive : s.active = none) :
    Bounded s.queue := by
  intro last hlast
  unfold leavesBoundary at h
  rw [hactive, Option.mem_def.mp hlast] at h
  simpa using h

/-- With every request before the barrier, the cut is at the end of the queue. -/
theorem cutAt_end {s : Batcher α ε} (free : s.lock = none)
    (hactive : s.active = none) (hqueue : AllBefore s.requests.length s.queue)
    (hdispatched : AllBefore s.requests.length s.dispatched)
    (hbounded : Bounded s.queue) : s.CutAt s.requests.length := by
  constructor
  · exact Nat.le_refl _
  · exact ⟨s.queue, [], by simp, hqueue, hbounded, nofun⟩
  · rw [hactive]
    exact nofun
  · rw [free]
    exact nofun
  · intro batch hbatch
    left
    simpa [AllBefore] using hdispatched batch hbatch

theorem schedule_cutAt {s : Batcher α ε} {barrier : Nat} (h : s.CutAt barrier) :
    s.schedule.CutAt barrier := by
  obtain ⟨batches, rest, hregroup, heq, -, -⟩ := s.schedule_spec
  rw [heq]
  refine h.schedule hregroup rfl rfl rfl rfl ?_
  simp [dispatched, Runner.start, Function.comp_def]

theorem flushAsync_cutAt {s s' : Batcher α ε} {order : List Nat}
    (hactiveInv : s.ActiveInv) (horder : s.OrderInv)
    (hboundary : s.leavesBoundary = true)
    (hstep : s.flushAsync order = some s') : s'.CutAt s.requests.length := by
  have hqueue : AllBefore s.requests.length s.queue := fun batch hbatch =>
    horder.bounded batch (List.mem_append_left _ hbatch)
  have hdispatched : AllBefore s.requests.length s.dispatched := by
    intro batch hbatch
    obtain ⟨runner, hrunner, rfl⟩ := List.mem_map.mp hbatch
    exact horder.runner_bounded runner hrunner
  simp only [flushAsync] at hstep
  split at hstep
  · cases hstep
  · rename_i free
    split at hstep
    · cases hstep
      refine CutAt.congr (schedule_cutAt (s := s.enqueueActive .manual) ?_)
        rfl rfl rfl rfl rfl
      cases hactive : s.active with
      | none =>
          rw [enqueueActive_of_none hactive]
          exact cutAt_end free hactive hqueue hdispatched
            (bounded_of_leavesBoundary hboundary hactive)
      | some batch =>
          obtain ⟨timers, hdetach⟩ := enqueueActive_of_active hactive
            (hactiveInv.rows_ne_nil hactive) .manual
          rw [hdetach]
          refine cutAt_end (s := { s with
              active := none
              queue := s.queue ++ [batch.detached .manual]
              timers := timers }) free rfl ?_ hdispatched (bounded_concat _ ?_)
          · intro b hb
            rcases List.mem_append.mp hb with hb | hb
            · exact hqueue b hb
            · rw [List.mem_singleton.mp hb]
              exact horder.bounded batch (by simp [waiting, hactive])
          · simp [CopyBatch.detached]
    · cases hstep

end Batcher

open Batcher

/--
A flush that leaves a boundary isolates what it covers: whatever happens
before and after it, no batch holds rows from both of its sides.  Hence every
batch with a request that the flush awaits holds only requests accepted
before it.
-/
theorem flush_isolates_when_bounded {s s' t : Batcher α ε} {order : List Nat}
    (hreachable : Reachable s) (hguard : s.leavesBoundary = true)
    (hflush : s.step (.flushAsync order) = some s')
    (hrun : Reaches Batcher.step s' t) :
    (∀ batch ∈ t.dispatched, ∀ older ∈ batch.tagged, ∀ newer ∈ batch.tagged,
      ¬(older.1 < s.accepted.length ∧ s.accepted.length ≤ newer.1)) ∧
    ∀ request < s.accepted.length, ∀ runner ∈ t.own request,
      ∀ r ∈ runner.batch.requests, r < s.accepted.length := by
  have hreachable' : Reachable s' := hreachable.trans (.single hflush)
  have hcut : t.CutAt s.requests.length := by
    refine hreachable'.relation (P := fun _ => True)
      (R := fun s t => s.CutAt _ → t.CutAt _) hrun trivial
      (fun _ _ _ => trivial) (fun _ => id) (fun f g => g ∘ f) ?_ ?_
    · intro s s' _ _ hmove h
      exact h.move hmove
    · exact flushAsync_cutAt hreachable.activeInv hreachable.inv.order hguard hflush
  rw [hreachable.inv.ledger.length]
  have hsides : ∀ batch ∈ t.dispatched, ∀ r ∈ batch.requests,
      r < s.requests.length → ∀ r' ∈ batch.requests, r' < s.requests.length := by
    intro batch hbatch r hr hlt r' hr'
    rcases hcut.dispatched batch hbatch with hbefore | hafter
    · exact hbefore batch List.mem_cons_self r' hr'
    · have := hafter batch List.mem_cons_self r hr
      omega
  constructor
  · rintro batch hbatch ⟨older, row⟩ holder ⟨newer, row'⟩ hnewer ⟨hlt, hle⟩
    have hmem := (hreachable'.trans hrun).mem_requests_iff
      (List.mem_append_left _ hbatch)
    have := hsides batch hbatch older ((hmem older).mpr ⟨row, holder⟩) hlt newer
      ((hmem newer).mpr ⟨row', hnewer⟩)
    omega
  · intro request hlt runner hrunner r hr
    obtain ⟨hrunner, hmem⟩ := List.mem_filter.mp hrunner
    exact hsides runner.batch (List.mem_map_of_mem hrunner) request
      (by simpa using hmem) hlt r hr

def splitSource : Batcher Nat Unit :=
  (runFrom Batcher.step splitStart (splitTrace.take 7)).getD splitStart

theorem splitSource_reachable : Reachable splitSource :=
  ⟨splitConfig, splitStart, rfl, splitTrace.take 7, rfl⟩

theorem flush_isolates_when_bounded_split :
    splitSource.leavesBoundary = true ∧
      splitSource.step (.flushAsync [0, 1]) = some splitState ∧
      splitSource.accepted.length = 2 ∧
      (splitState.own 0).length = 1 ∧
      (∀ runner ∈ splitState.own 0, ∀ r ∈ runner.batch.requests,
        r < splitSource.accepted.length) := by
  have hflush : splitSource.step (.flushAsync [0, 1]) = some splitState := rfl
  have hisolated :=
    (flush_isolates_when_bounded splitSource_reachable rfl hflush (.refl _)).2
  exact ⟨rfl, hflush, rfl, rfl, hisolated 0 (by decide)⟩

/-! ## A flush without a boundary

With one slot taken by request 0, the batch of request 1 expires and waits.
A flush finds no active batch.  The batch of request 2 expires later and is
merged with that of request 1.
-/

def mixedStart : Batcher Nat Unit :=
  Batcher.initial (CopyBatchConfig.accepted ⟨0, 1, 1⟩ (ε := Unit) rfl)

def mixedBefore : List (Action Nat Unit) :=
  [.submit [1] true none none, .place, .unlock, .timerFires 0,
   .flushExpiredBatch 0,
   .submit [2] true none none, .place, .unlock, .timerFires 1,
   .flushExpiredBatch 1]

def mixedAfter : List (Action Nat Unit) :=
  [.submit [3] true none none, .place, .unlock, .timerFires 2,
   .flushExpiredBatch 2,
   .copyReturns 0 1 none, .finishPart 0, .resolve 0, .complete 0]

theorem flush_mixes_without_boundary :
    ∃ s s' t : Batcher Nat Unit,
      newCopyBatcher ⟨0, 1, 1⟩ false = .ok mixedStart ∧
      runFrom Batcher.step mixedStart mixedBefore = some s ∧
      s.step (.flushAsync [0, 1]) = some s' ∧
      runFrom Batcher.step s' mixedAfter = some t ∧
      ∃ runner, t.runners[s'.runners.length]? = some runner ∧
        ∃ older ∈ runner.batch.tagged, ∃ newer ∈ runner.batch.tagged,
          older.1 < s.accepted.length ∧ s.accepted.length ≤ newer.1 := by
  refine ⟨_, _, _, rfl, rfl, rfl, rfl, _, rfl, (1, 2), ?_, (2, 3), ?_, ?_⟩
  · decide
  · decide
  · decide

end PgMesh.Copy
