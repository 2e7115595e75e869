import PgMesh.Copy.Batcher

/-!
# Taking batches from the queue

Scheduling may merge adjacent linger-expired batches, so the batches it
dispatches and the queue it leaves are the old queue with some neighbours
merged.  `Regroup` is that relation; whatever does not depend on the grouping
is preserved by it.
-/

namespace PgMesh.Copy

open PgMesh.Foundation

variable {α ε : Type}

/-- The second list is the first one with some adjacent linger batches merged. -/
inductive Regroup : List (CopyBatch α) → List (CopyBatch α) → Prop
  | nil : Regroup [] []
  | keep (batch : CopyBatch α) {queue queue' : List (CopyBatch α)} :
      Regroup queue queue' → Regroup (batch :: queue) (batch :: queue')
  | merge {batch next : CopyBatch α} {queue queue' : List (CopyBatch α)} :
      batch.reason = some .linger → next.reason = some .linger →
      Regroup (batch.merge next :: queue) queue' →
      Regroup (batch :: next :: queue) queue'

namespace Regroup

theorem refl (queue : List (CopyBatch α)) : Regroup queue queue := by
  induction queue with
  | nil => exact .nil
  | cons batch queue ih => exact .keep batch ih

theorem parts_eq {queue queue' : List (CopyBatch α)} (h : Regroup queue queue') :
    queue'.flatMap CopyBatch.parts = queue.flatMap CopyBatch.parts := by
  induction h with
  | nil => rfl
  | keep batch _ ih => simp [ih]
  | merge _ _ _ ih => simpa [CopyBatch.merge] using ih

theorem requests_eq {queue queue' : List (CopyBatch α)}
    (h : Regroup queue queue') :
    queue'.flatMap CopyBatch.requests = queue.flatMap CopyBatch.requests := by
  induction h with
  | nil => rfl
  | keep batch _ ih => simp [ih]
  | merge _ _ _ ih => simpa [CopyBatch.merge, CopyBatch.requests] using ih

/-- A batch that is not linger-expired separates what precedes and follows it. -/
theorem append_inv {before after queue' : List (CopyBatch α)}
    (h : Regroup (before ++ after) queue')
    (boundary : ∀ last ∈ before.getLast?, last.reason ≠ some .linger) :
    ∃ before' after', queue' = before' ++ after' ∧ Regroup before before' ∧
      Regroup after after' := by
  generalize hq : before ++ after = queue at h
  induction h generalizing before with
  | nil =>
      obtain ⟨rfl, rfl⟩ := List.append_eq_nil_iff.mp hq
      exact ⟨[], [], rfl, .nil, .nil⟩
  | @keep batch queue queue' hrest ih =>
      cases before with
      | nil =>
          subst hq
          exact ⟨[], batch :: queue', rfl, .nil, .keep batch hrest⟩
      | cons first before =>
          obtain ⟨rfl, rfl⟩ := List.cons.inj hq
          have hlast : ∀ last ∈ before.getLast?, last.reason ≠ some .linger := by
            intro last hlast
            apply boundary last
            simp [List.getLast?_cons, Option.mem_def.mp hlast]
          obtain ⟨before', after', rfl, hbefore, hafter⟩ := ih hlast rfl
          exact ⟨first :: before', after', rfl, .keep first hbefore, hafter⟩
  | @merge batch next queue queue' hbatch hnext hrest ih =>
      cases before with
      | nil =>
          subst hq
          exact ⟨[], queue', rfl, .nil, .merge hbatch hnext hrest⟩
      | cons first before =>
          obtain ⟨rfl, htail⟩ := List.cons.inj hq
          cases before with
          | nil => exact absurd hbatch (boundary first rfl)
          | cons second before =>
              obtain ⟨rfl, rfl⟩ := List.cons.inj htail
              have hlast : ∀ last ∈ (first.merge second :: before).getLast?,
                  last.reason ≠ some .linger := by
                intro last hlast
                cases before with
                | nil => exact absurd hnext (boundary second rfl)
                | cons third before => exact boundary last hlast
              obtain ⟨before', after', rfl, hbefore, hafter⟩ := ih hlast rfl
              exact ⟨before', after', rfl, .merge hbatch hnext hbefore, hafter⟩

end Regroup

namespace Batcher

theorem mergeLinger_regroup (config : BatcherConfig) {batch : CopyBatch α}
    (hbatch : batch.reason = some .linger) (queue : List (CopyBatch α))
    {rest : List (CopyBatch α)}
    (hrest : Regroup (mergeLinger config batch queue).2 rest) :
    Regroup (batch :: queue) ((mergeLinger config batch queue).1 :: rest) := by
  induction queue generalizing batch with
  | nil => exact .keep batch hrest
  | cons next queue ih =>
      simp only [mergeLinger] at hrest ⊢
      split at hrest
      · rename_i hnext
        rw [if_pos hnext]
        exact .keep batch hrest
      · rename_i hnext
        rw [if_neg hnext]
        split at hrest
        · rename_i hfull
          rw [if_pos hfull]
          exact .keep batch hrest
        · rename_i hfull
          rw [if_neg hfull]
          refine .merge hbatch (by simpa using hnext) ?_
          exact ih (by simpa [CopyBatch.merge] using hbatch) hrest

theorem dequeueLocked_regroup (config : BatcherConfig) (batch : CopyBatch α)
    (queue : List (CopyBatch α)) {rest : List (CopyBatch α)}
    (hrest : Regroup (dequeueLocked config batch queue).2 rest) :
    Regroup (batch :: queue) ((dequeueLocked config batch queue).1 :: rest) := by
  simp only [dequeueLocked] at hrest ⊢
  split at hrest
  · rename_i hreason
    rw [if_pos hreason]
    exact .keep batch hrest
  · rename_i hreason
    rw [if_neg hreason]
    exact mergeLinger_regroup config (by simpa using hreason) queue hrest

theorem takeBatches_regroup (config : BatcherConfig) (capacity : Nat)
    (queue : List (CopyBatch α)) :
    Regroup queue ((takeBatches config capacity queue).1 ++
      (takeBatches config capacity queue).2) := by
  induction capacity generalizing queue with
  | zero => exact .refl queue
  | succ capacity ih =>
      cases queue with
      | nil => exact .nil
      | cons batch queue =>
          exact dequeueLocked_regroup config batch queue (ih _)

theorem takeBatches_length_le (config : BatcherConfig) (capacity : Nat)
    (queue : List (CopyBatch α)) :
    (takeBatches config capacity queue).1.length ≤ capacity := by
  induction capacity generalizing queue with
  | zero => simp [takeBatches]
  | succ capacity ih =>
      cases queue with
      | nil => simp [takeBatches]
      | cons batch queue => simpa [takeBatches] using ih _

theorem takeBatches_length_of_rest (config : BatcherConfig) (capacity : Nat)
    (queue : List (CopyBatch α))
    (h : (takeBatches config capacity queue).2 ≠ []) :
    (takeBatches config capacity queue).1.length = capacity := by
  induction capacity generalizing queue with
  | zero => simp [takeBatches]
  | succ capacity ih =>
      cases queue with
      | nil => simp [takeBatches] at h
      | cons batch queue =>
          have hrest := ih (dequeueLocked config batch queue).2 h
          simp [takeBatches, hrest]

/-- What scheduling does, and that it stops only at the limit. -/
theorem schedule_spec (s : Batcher α ε) :
    ∃ batches rest, Regroup s.queue (batches ++ rest) ∧
      s.schedule = { s with
        queue := rest
        inFlight := s.inFlight + batches.length
        runners := s.runners ++ batches.map Runner.start } ∧
      (rest ≠ [] →
        s.config.maxConcurrentBatches ≤ s.inFlight + batches.length) ∧
      (s.inFlight ≤ s.config.maxConcurrentBatches →
        s.inFlight + batches.length ≤ s.config.maxConcurrentBatches) := by
  by_cases hidle :
      s.config.maxConcurrentBatches - s.inFlight ≤ 0 ∨ s.queue.length = 0
  · refine ⟨[], s.queue, .refl _, ?_, ?_, by simp⟩
    · simp only [schedule, scheduleLocked, if_pos hidle, dispatch]
      simp
    · intro hqueue
      rcases hidle with hfull | hempty
      · simp
        omega
      · exact absurd (List.length_eq_zero_iff.mp hempty) hqueue
  · have hcapacity : 0 < s.config.maxConcurrentBatches - s.inFlight := by
      omega
    generalize hn : (s.config.maxConcurrentBatches - s.inFlight).toNat = n
    refine ⟨(takeBatches s.config n s.queue).1,
      (takeBatches s.config n s.queue).2, takeBatches_regroup _ _ _, ?_, ?_, ?_⟩
    · simp only [schedule, scheduleLocked, if_neg hidle, dispatch, hn]
    · intro hrest
      rw [takeBatches_length_of_rest _ _ _ hrest]
      omega
    · intro _
      have := takeBatches_length_le s.config n s.queue
      omega

end Batcher

/-! ## Which batches are taken -/

/-- So many rows may go into one batch. -/
def Fits (config : BatcherConfig) (rowCount : Nat) : Prop :=
  0 < config.maxRowsPerBatch → (rowCount : Int) ≤ config.maxRowsPerBatch

/-- A batch followed by the parts of others. -/
def CopyBatch.concat (first : CopyBatch α) (group : List (CopyBatch α)) : CopyBatch α :=
  { first with parts := (first :: group).flatMap CopyBatch.parts }

/--
The batches taken from the head of a queue and the queue that is left.  A
batch is taken alone, unless it is linger-expired: then it takes along all
linger-expired batches right behind it, as far as they fit.
-/
inductive Taken (config : BatcherConfig) :
    List (CopyBatch α) → List (CopyBatch α) → List (CopyBatch α) → Prop
  | stop (queue : List (CopyBatch α)) : Taken config queue [] queue
  | single (batch : CopyBatch α) {queue batches rest : List (CopyBatch α)} :
      batch.reason = some .full ∨ batch.reason = some .manual ∨
        batch.reason = some .unbatched →
      Taken config queue batches rest →
        Taken config (batch :: queue) (batch :: batches) rest
  | merged (first : CopyBatch α) (group : List (CopyBatch α))
      {queue batches rest : List (CopyBatch α)} :
      (∀ batch ∈ first :: group, batch.reason = some .linger) →
      Fits config (first.concat group).rows.length →
      (∀ next ∈ queue.head?, next.reason = some .linger →
        ¬Fits config ((first.concat group).rows.length + next.rows.length)) →
      Taken config queue batches rest →
        Taken config (first :: group ++ queue) (first.concat group :: batches) rest

@[simp] theorem CopyBatch.concat_nil (first : CopyBatch α) : first.concat [] = first := by
  simp [CopyBatch.concat]

theorem CopyBatch.concat_cons (first next : CopyBatch α) (group : List (CopyBatch α)) :
    first.concat (next :: group) = (first.merge next).concat group := by
  simp [CopyBatch.concat, CopyBatch.merge]

theorem CopyBatch.concat_rows_ne_nil {first : CopyBatch α} (group : List (CopyBatch α))
    (h : first.rows ≠ []) : (first.concat group).rows ≠ [] := by
  have hrows : (first.concat group).rows =
      first.rows ++ (group.flatMap CopyBatch.parts).flatMap CopyPart.rows := by
    simp [CopyBatch.concat, CopyBatch.rows]
  rw [hrows]
  simp [h]

@[simp] theorem CopyBatch.length_rows_merge (batch next : CopyBatch α) :
    (batch.merge next).rows.length = batch.rows.length + next.rows.length := by
  simp [CopyBatch.merge, CopyBatch.rows]

namespace Batcher

/-- The loop stops where the next batch is of another kind or does not fit. -/
theorem mergeLinger_spec (config : BatcherConfig) {batch : CopyBatch α}
    (hbatch : batch.reason = some .linger) (hfits : Fits config batch.rows.length)
    (queue : List (CopyBatch α)) :
    ∃ group rest, queue = group ++ rest ∧
      (∀ b ∈ batch :: group, b.reason = some .linger) ∧
      mergeLinger config batch queue = (batch.concat group, rest) ∧
      Fits config (batch.concat group).rows.length ∧
      ∀ next ∈ rest.head?, next.reason = some .linger →
        ¬Fits config ((batch.concat group).rows.length + next.rows.length) := by
  induction queue generalizing batch with
  | nil =>
      refine ⟨[], [], rfl, by simpa using hbatch, by simp [mergeLinger], by simpa using hfits, ?_⟩
      simp
  | cons next queue ih =>
      simp only [mergeLinger]
      by_cases hnext : next.reason ≠ some .linger
      · rw [if_pos hnext]
        refine ⟨[], next :: queue, rfl, by simpa using hbatch, by simp,
          by simpa using hfits, ?_⟩
        rintro _ ⟨⟩ hlinger
        exact absurd hlinger hnext
      · rw [if_neg hnext]
        have hnext' : next.reason = some .linger := by simpa using hnext
        by_cases hover : 0 < config.maxRowsPerBatch ∧
            (batch.rows.length + next.rows.length : Int) > config.maxRowsPerBatch
        · rw [if_pos hover]
          refine ⟨[], next :: queue, rfl, by simpa using hbatch, by simp,
            by simpa using hfits, ?_⟩
          rintro _ ⟨⟩ _ hfit
          have hle := hfit hover.1
          rw [CopyBatch.concat_nil] at hle
          omega
        · rw [if_neg hover]
          have hmerged : Fits config (batch.merge next).rows.length := by
            intro hbounded
            rw [CopyBatch.length_rows_merge]
            omega
          obtain ⟨group, rest, rfl, hlinger, heq, hfit, hmax⟩ :=
            @ih (batch.merge next) hbatch hmerged
          refine ⟨next :: group, rest, rfl, ?_, ?_, ?_, ?_⟩
          · intro b hb
            rcases List.mem_cons.mp hb with rfl | hb
            · exact hbatch
            · rcases List.mem_cons.mp hb with rfl | hb
              · exact hnext'
              · exact hlinger b (List.mem_cons_of_mem _ hb)
          · rw [CopyBatch.concat_cons]
            exact heq
          · rw [CopyBatch.concat_cons]
            exact hfit
          · rw [CopyBatch.concat_cons]
            exact hmax

/-- A queued batch has a reason, and a linger-expired one fits by itself. -/
def Takeable (config : BatcherConfig) (batch : CopyBatch α) : Prop :=
  batch.reason ≠ none ∧
    (batch.reason = some .linger → Fits config batch.rows.length)

theorem takeBatches_taken (config : BatcherConfig) (capacity : Nat)
    {queue : List (CopyBatch α)} (h : ∀ batch ∈ queue, Takeable config batch) :
    Taken config queue (takeBatches config capacity queue).1
      (takeBatches config capacity queue).2 := by
  induction capacity generalizing queue with
  | zero => exact .stop queue
  | succ capacity ih =>
      cases queue with
      | nil => exact .stop []
      | cons batch queue =>
          obtain ⟨hreason, hfits⟩ := h batch List.mem_cons_self
          have hrest := fun b hb => h b (List.mem_cons_of_mem batch hb)
          by_cases hlinger : batch.reason = some .linger
          · obtain ⟨group, rest, rfl, hgroup, heq, hfit, hmax⟩ :=
              mergeLinger_spec config hlinger (hfits hlinger) queue
            have hdequeue : dequeueLocked config batch (group ++ rest) =
                (batch.concat group, rest) := by
              rw [dequeueLocked, if_neg (by simpa using hlinger), heq]
            simp only [takeBatches, hdequeue]
            exact .merged batch group hgroup hfit hmax
              (ih fun b hb => hrest b (List.mem_append_right _ hb))
          · have hdequeue : dequeueLocked config batch queue = (batch, queue) := by
              rw [dequeueLocked, if_pos hlinger]
            simp only [takeBatches, hdequeue]
            refine .single batch ?_ (ih hrest)
            cases hr : batch.reason with
            | none => exact absurd hr hreason
            | some reason => cases reason <;> simp_all

theorem schedule_taken (s : Batcher α ε)
    (h : ∀ batch ∈ s.queue, Takeable s.config batch) :
    ∃ batches rest, Taken s.config s.queue batches rest ∧
      s.schedule = { s with
        queue := rest
        inFlight := s.inFlight + batches.length
        runners := s.runners ++ batches.map Runner.start } := by
  by_cases hidle :
      s.config.maxConcurrentBatches - s.inFlight ≤ 0 ∨ s.queue.length = 0
  · refine ⟨[], s.queue, .stop _, ?_⟩
    simp only [schedule, scheduleLocked, if_pos hidle, dispatch]
    simp
  · refine ⟨_, _, takeBatches_taken s.config
      (s.config.maxConcurrentBatches - s.inFlight).toNat h, ?_⟩
    simp only [schedule, scheduleLocked, if_neg hidle, dispatch]

end Batcher

end PgMesh.Copy
