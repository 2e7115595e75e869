import PgMesh.Copy.Moves
import Mathlib.Algebra.Order.Group.Multiset
import Mathlib.Tactic.Abel

/-!
# Row accounting

Rows are followed under the name of the request that submitted them.  The
batches of a batcher form one line: those dispatched, in dispatch order, then
the queue, then the active batch.  Reading the line from its start, the rows
of each class (coalesced and unbatched) come in acceptance order, and the
rows that `submit` has not placed yet come last.
-/

namespace PgMesh.Copy

open PgMesh.Foundation

variable {α ε : Type}

def CopyPart.tagged (p : CopyPart α) : List (Nat × α) :=
  p.rows.map (p.request, ·)

namespace CopyBatch

def tagged (b : CopyBatch α) : List (Nat × α) :=
  b.parts.flatMap CopyPart.tagged

def coalesced (b : CopyBatch α) : Bool := b.reason ≠ some .unbatched

end CopyBatch

/-- The rows of the batches of one class, in the order of the batches. -/
def taggedRows (coalesce : Bool) (batches : List (CopyBatch α)) :
    List (Nat × α) :=
  (batches.filter (·.coalesced == coalesce)).flatMap CopyBatch.tagged

@[simp] theorem taggedRows_nil (coalesce : Bool) :
    taggedRows coalesce ([] : List (CopyBatch α)) = [] := rfl

@[simp] theorem taggedRows_append (coalesce : Bool)
    (first second : List (CopyBatch α)) :
    taggedRows coalesce (first ++ second) =
      taggedRows coalesce first ++ taggedRows coalesce second := by
  simp [taggedRows]

theorem taggedRows_cons (coalesce : Bool) (batch : CopyBatch α)
    (batches : List (CopyBatch α)) :
    taggedRows coalesce (batch :: batches) =
      (if batch.coalesced = coalesce then batch.tagged else []) ++
        taggedRows coalesce batches := by
  by_cases h : batch.coalesced = coalesce <;> simp [taggedRows, h]

theorem Regroup.taggedRows_eq {queue queue' : List (CopyBatch α)}
    (h : Regroup queue queue') (coalesce : Bool) :
    taggedRows coalesce queue' = taggedRows coalesce queue := by
  induction h with
  | nil => rfl
  | keep batch _ ih => rw [taggedRows_cons, taggedRows_cons, ih]
  | @merge batch next queue queue' hbatch hnext _ ih =>
      rw [ih, taggedRows_cons, taggedRows_cons, taggedRows_cons]
      cases coalesce <;>
        simp [CopyBatch.merge, CopyBatch.coalesced, CopyBatch.tagged, hbatch,
          hnext]

/-- The rows that the call of `submit` holding the lock has not placed yet. -/
def taggedUnplaced (coalesce : Bool) : Option (Submitting α) → List (Nat × α)
  | none => []
  | some holder =>
      if holder.coalesce = coalesce then holder.rows.map (holder.request, ·)
      else []

/-- The rows of the accepted submissions of one class, in acceptance order. -/
def taggedAccepted (coalesce : Bool) (accepted : List (Submission α)) :
    List (Nat × α) :=
  accepted.zipIdx.flatMap fun (submission, request) =>
    if submission.coalesce = coalesce then submission.rows.map (request, ·)
    else []

theorem taggedAccepted_append_singleton (coalesce : Bool)
    (accepted : List (Submission α)) (submission : Submission α) :
    taggedAccepted coalesce (accepted ++ [submission]) =
      taggedAccepted coalesce accepted ++
        if submission.coalesce = coalesce then
          submission.rows.map (accepted.length, ·)
        else [] := by
  simp [taggedAccepted, List.zipIdx_append]

namespace Batcher

/-- All batches handed to `runBatch`, in dispatch order. -/
def dispatched (s : Batcher α ε) : List (CopyBatch α) :=
  s.runners.map Runner.batch

/--
For each class, the rows of the line of batches followed by the rows not yet
placed are the accepted rows.
-/
structure RowsInv (s : Batcher α ε) : Prop where
  length : s.accepted.length = s.requests.length
  rows : ∀ coalesce, taggedRows coalesce s.dispatched ++
    taggedRows coalesce s.queue ++ taggedRows coalesce s.active.toList ++
      taggedUnplaced coalesce s.lock = taggedAccepted coalesce s.accepted

theorem initial_rowsInv (config : BatcherConfig) :
    (Batcher.initial config : Batcher α ε).RowsInv where
  length := rfl
  rows := fun _ => rfl

theorem map_batch_set {runners : List (Runner α ε)} {i : Nat}
    {r r' : Runner α ε} (hrunner : runners[i]? = some r)
    (hbatch : r'.batch = r.batch) :
    (runners.set i r').map Runner.batch = runners.map Runner.batch := by
  obtain ⟨before, after, rfl, rfl⟩ := exists_split_of_getElem? hrunner
  rw [set_split]
  simp [hbatch]

@[simp] theorem map_batch_start (batches : List (CopyBatch α)) :
    (batches.map (Runner.start (ε := ε))).map Runner.batch = batches := by
  simp [Runner.start, Function.comp_def]

theorem Current.tagged {s : Batcher α ε} {batch : CopyBatch α}
    {timers : List Timer} {nextBatch : Nat}
    (current : s.Current batch timers nextBatch) (h : s.ActiveInv)
    (coalesce : Bool) :
    batch.reason = none ∧
      taggedRows coalesce s.active.toList =
        if coalesce then batch.tagged else [] := by
  rcases current with ⟨hactive, -, -⟩ | ⟨hactive, rfl, -, -⟩
  · have hreason := h.reason batch hactive
    refine ⟨hreason, ?_⟩
    rw [hactive, Option.toList_some, taggedRows_cons]
    cases coalesce <;> simp [CopyBatch.coalesced, hreason]
  · refine ⟨rfl, ?_⟩
    cases coalesce <;> simp [hactive, CopyBatch.tagged]

theorem RowsInv.congr {s s' : Batcher α ε} (h : s.RowsInv)
    (hdispatched : s'.dispatched = s.dispatched) (hqueue : s'.queue = s.queue)
    (hactive : s'.active = s.active) (hlock : s'.lock = s.lock)
    (haccepted : s'.accepted = s.accepted)
    (hlength : s'.requests.length = s.requests.length) : s'.RowsInv := by
  refine ⟨by rw [haccepted, hlength, h.length], fun c => ?_⟩
  rw [hdispatched, hqueue, hactive, hlock, haccepted, h.rows c]

theorem RowsInv.move {s s' : Batcher α ε} (hactive : s.ActiveInv)
    (h : s.RowsInv) (hmove : Move s s') : s'.RowsInv := by
  cases hmove with
  | accept free nonempty =>
      refine ⟨by simp [accept, h.length], fun c => ?_⟩
      have hrows := h.rows c
      simp only [free, taggedUnplaced, List.append_nil] at hrows
      simp only [accept, taggedAccepted_append_singleton, ← hrows, h.length,
        taggedUnplaced, dispatched]
  | @extend holder batch timers nextBatch held coalesce nonempty current room =>
      refine ⟨by simpa using h.length, fun c => ?_⟩
      obtain ⟨hreason, hline⟩ := current.tagged hactive c
      rw [← h.rows c, hline, held, Option.toList_some, taggedRows_cons]
      cases c <;>
        simp [dispatched, taggedUnplaced, coalesce, CopyBatch.append,
          CopyBatch.coalesced, hreason, CopyBatch.tagged, CopyPart.tagged]
  | @fill holder batch timers timers' nextBatch rowCount held coalesce positive
      within current full =>
      refine ⟨by simpa using h.length, fun c => ?_⟩
      obtain ⟨hreason, hline⟩ := current.tagged hactive c
      rw [← h.rows c, hline, held, taggedRows_append, taggedRows_cons]
      -- The rows taken and the rows left are the rows the holder had.
      cases c <;>
        simp [dispatched, taggedUnplaced, coalesce, CopyBatch.append,
          CopyBatch.coalesced, CopyBatch.detached, CopyBatch.tagged,
          CopyPart.tagged]
  | @unbatched holder held coalesce nonempty =>
      refine ⟨by simpa using h.length, fun c => ?_⟩
      rw [← h.rows c, held, taggedRows_append, taggedRows_cons]
      cases c with
      | false =>
          -- The active batch is coalesced, so it has no row of this class.
          have hline : taggedRows false s.active.toList = [] := by
            cases hs : s.active with
            | none => rfl
            | some batch =>
                simp [taggedRows, CopyBatch.coalesced, hactive.reason batch hs]
          simp [dispatched, hline, taggedUnplaced, coalesce,
            CopyBatch.coalesced, CopyBatch.tagged, CopyPart.tagged]
      | true =>
          simp [dispatched, taggedUnplaced, coalesce, CopyBatch.coalesced]
  | @release holder held placed =>
      refine ⟨h.length, fun c => ?_⟩
      rw [← h.rows c, held]
      simp [dispatched, taggedUnplaced, placed]
  | @detach batch reason timers free active cause =>
      refine ⟨h.length, fun c => ?_⟩
      have hclass : (batch.detached reason).coalesced = batch.coalesced := by
        have hreason := hactive.reason batch active
        rcases cause with rfl | rfl <;>
          simp [CopyBatch.detached, CopyBatch.coalesced, hreason]
      rw [← h.rows c, active, Option.toList_some, taggedRows_cons,
        taggedRows_append, taggedRows_cons, hclass]
      simp [dispatched, CopyBatch.detached, CopyBatch.tagged]
  | @schedule batches rest free regroup capacity =>
      refine ⟨h.length, fun c => ?_⟩
      have hqueue := regroup.taggedRows_eq c
      rw [taggedRows_append] at hqueue
      rw [← h.rows c, ← hqueue, dispatched, List.map_append, map_batch_start]
      simp [dispatched]
  | copyReturns runner =>
      exact h.congr (map_batch_set runner rfl) rfl rfl rfl rfl rfl
  | finishPart runner found more =>
      exact h.congr (map_batch_set runner rfl) rfl rfl rfl rfl (by simp)
  | finishLast runner found last =>
      exact h.congr (map_batch_set runner rfl) rfl rfl rfl rfl (by simp)
  | resolve runner =>
      exact h.congr (map_batch_set runner rfl) rfl rfl rfl rfl (by simp)
  | retire free runner =>
      exact h.congr (map_batch_set runner rfl) rfl rfl rfl rfl rfl
  | timer live => exact ⟨h.length, h.rows⟩
  | flush free inactive order_perm => exact ⟨h.length, h.rows⟩
  | awaitFuture waiting found settled => exact ⟨h.length, h.rows⟩
  | flushReturns waiting => exact ⟨h.length, h.rows⟩

theorem accepted_move {s s' : Batcher α ε} (hmove : Move s s') :
    s.accepted <+: s'.accepted := by
  cases hmove with
  | accept => exact List.prefix_append _ _
  | _ => exact List.prefix_refl _

/-- The batches whose `runBatch` has finished. -/
def finished (s : Batcher α ε) : List (CopyBatch α) :=
  (s.runners.filter (·.phase.isExited)).map Runner.batch

/-- The batches between their dispatch and the end of `runBatch`. -/
def flying (s : Batcher α ε) : List (CopyBatch α) :=
  (s.runners.filter (!·.phase.isExited)).map Runner.batch

theorem dispatched_perm (s : Batcher α ε) :
    (s.finished ++ s.flying).Perm s.dispatched := by
  rw [finished, flying, dispatched, ← List.map_append]
  exact (List.filter_append_perm _ s.runners).map _

end Batcher

open Batcher

/-- An accepted submission keeps its place. -/
theorem Reachable.accepted_kept {s t : Batcher α ε} (h : Reachable s)
    (hrun : Reaches Batcher.step s t) : s.accepted <+: t.accepted :=
  h.relation (P := fun _ => True) (R := fun s t => s.accepted <+: t.accepted)
    hrun trivial (fun _ _ _ => trivial) (fun _ => List.prefix_refl _)
    List.IsPrefix.trans fun _ _ hmove => accepted_move hmove

theorem Reachable.rowsInv {s : Batcher α ε} (h : Reachable s) : s.RowsInv :=
  (h.invariant initial_rowsInv RowsInv.move).2

/-- Splitting the batches by class loses no row. -/
theorem taggedRows_perm (batches : List (CopyBatch α)) :
    (taggedRows true batches ++ taggedRows false batches).Perm
      (batches.flatMap CopyBatch.tagged) := by
  have hfalse : (fun b : CopyBatch α => b.coalesced == false) =
      fun b => !(b.coalesced == true) := by
    funext b
    cases b.coalesced <;> rfl
  rw [taggedRows, taggedRows, ← List.flatMap_append, hfalse]
  exact (List.filter_append_perm _ batches).flatMap_right _

theorem taggedAccepted_perm (accepted : List (Submission α)) :
    (taggedAccepted true accepted ++ taggedAccepted false accepted).Perm
      (accepted.zipIdx.flatMap fun (submission, request) =>
        submission.rows.map (request, ·)) := by
  simp only [taggedAccepted]
  induction accepted.zipIdx with
  | nil => simp
  | cons entry entries ih =>
      obtain ⟨⟨rows, coalesce⟩, request⟩ := entry
      cases coalesce with
      | true => simpa [List.append_assoc] using ih.append_left _
      | false =>
          simp only [List.flatMap_cons, Bool.false_eq_true, if_false, if_true,
            List.nil_append]
          refine List.Perm.trans ?_ (ih.append_left _)
          rw [← List.append_assoc, ← List.append_assoc]
          exact List.perm_append_comm.append_right _

/--
Every accepted row is in exactly one place: in a finished batch, in a batch
in flight, in the queue, in the active batch or, while `submit` still holds
the lock, among the rows it has not placed.  Within each class the line of
batches keeps the acceptance order.
-/
theorem rows_exactly_once_in_order {s : Batcher α ε} (h : Reachable s) :
    (s.finished.flatMap CopyBatch.tagged ++ s.flying.flatMap CopyBatch.tagged ++
      s.queue.flatMap CopyBatch.tagged ++
      s.active.toList.flatMap CopyBatch.tagged ++
      (taggedUnplaced true s.lock ++ taggedUnplaced false s.lock)).Perm
      (s.accepted.zipIdx.flatMap fun (submission, request) =>
        submission.rows.map (request, ·)) ∧
    (∀ coalesce, taggedRows coalesce s.dispatched ++
      taggedRows coalesce s.queue ++ taggedRows coalesce s.active.toList ++
        taggedUnplaced coalesce s.lock = taggedAccepted coalesce s.accepted) ∧
    (s.lock = none → ∀ coalesce, taggedUnplaced coalesce s.lock = []) := by
  have hrows := h.rowsInv
  refine ⟨?_, hrows.rows, fun hlock _ => by rw [hlock]; rfl⟩
  refine List.Perm.trans ?_ (taggedAccepted_perm s.accepted)
  rw [← hrows.rows true, ← hrows.rows false]
  have hdispatched : (s.finished.flatMap CopyBatch.tagged ++
      s.flying.flatMap CopyBatch.tagged).Perm
        (taggedRows true s.dispatched ++ taggedRows false s.dispatched) := by
    rw [← List.flatMap_append]
    exact (s.dispatched_perm.flatMap_right _).trans
      (taggedRows_perm s.dispatched).symm
  have hqueue := taggedRows_perm s.queue
  have hactive := taggedRows_perm s.active.toList
  simp only [← Multiset.coe_eq_coe, ← Multiset.coe_add]
    at hdispatched hqueue hactive ⊢
  rw [hdispatched, ← hqueue, ← hactive]
  abel

/-! ## A run

The run of `TestCopyBatcherCoalescesAndSplitsByRows`: with at most three rows
in a batch, the second submission is split between two batches.
-/

def splitConfig : CopyBatchConfig := ⟨3, 3600000000000, 1⟩

def splitStart : Batcher Nat Unit :=
  Batcher.initial (splitConfig.accepted (ε := Unit) rfl)

def splitTrace : List (Action Nat Unit) :=
  [.submit [1, 2] true none none, .place, .unlock,
   .submit [3, 4, 5] true none none, .place, .place, .unlock,
   .flushAsync [0, 1]]

def splitState : Batcher Nat Unit :=
  (runFrom Batcher.step splitStart splitTrace).getD splitStart

theorem splitState_reachable : Reachable splitState :=
  ⟨splitConfig, splitStart, rfl, splitTrace, rfl⟩

theorem rows_exactly_once_in_order_split :
    taggedRows true splitState.dispatched = [(0, 1), (0, 2), (1, 3)] ∧
    taggedRows true splitState.dispatched ++
        taggedRows true splitState.queue ++
        taggedRows true splitState.active.toList ++
        taggedUnplaced true splitState.lock =
      taggedAccepted true splitState.accepted :=
  ⟨rfl, (rows_exactly_once_in_order splitState_reachable).2.1 true⟩

end PgMesh.Copy
