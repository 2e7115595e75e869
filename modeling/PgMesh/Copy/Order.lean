import PgMesh.Copy.Moves
import PgMesh.Copy.Rows

/-!
# Requests along the line of batches

A request is split only by filling a batch, and a full batch is never merged.
Hence a linger-expired batch holds only requests that are older than every
request behind it, and merging keeps the requests of a batch distinct.
-/

namespace PgMesh.Copy

open PgMesh.Foundation

variable {α ε : Type}

/-- A linger-expired batch holds older requests than a batch behind it. -/
def Older (batch later : CopyBatch α) : Prop :=
  batch.reason = some .linger →
    ∀ r ∈ batch.requests, ∀ r' ∈ later.requests, r < r'

@[simp] theorem requests_detached (batch : CopyBatch α) (reason : FlushReason) :
    (batch.detached reason).requests = batch.requests := rfl

theorem requests_merge (batch next : CopyBatch α) :
    (batch.merge next).requests = batch.requests ++ next.requests := by
  simp [CopyBatch.merge, CopyBatch.requests]

theorem Regroup.mem_requests {queue queue' : List (CopyBatch α)}
    (h : Regroup queue queue') {batch : CopyBatch α} (hbatch : batch ∈ queue')
    {r : Nat} (hr : r ∈ batch.requests) :
    ∃ source ∈ queue, r ∈ source.requests := by
  have hmem : r ∈ queue'.flatMap CopyBatch.requests :=
    List.mem_flatMap.mpr ⟨batch, hbatch, hr⟩
  rw [h.requests_eq] at hmem
  exact List.mem_flatMap.mp hmem

theorem Regroup.older {queue queue' : List (CopyBatch α)}
    (h : Regroup queue queue') (behind : List (CopyBatch α))
    (hnodup : ∀ batch ∈ queue, batch.requests.Nodup)
    (holder : (queue ++ behind).Pairwise Older) :
    (∀ batch ∈ queue', batch.requests.Nodup) ∧
      (queue' ++ behind).Pairwise Older := by
  induction h with
  | nil => exact ⟨hnodup, holder⟩
  | @keep batch queue queue' hregroup ih =>
      obtain ⟨hfirst, hrest⟩ := List.pairwise_cons.mp holder
      obtain ⟨hnodup', holder'⟩ :=
        ih (fun b hb => hnodup b (List.mem_cons_of_mem _ hb)) hrest
      refine ⟨?_, List.pairwise_cons.mpr ⟨?_, holder'⟩⟩
      · intro b hb
        rcases List.mem_cons.mp hb with rfl | hb
        · exact hnodup b List.mem_cons_self
        · exact hnodup' b hb
      · intro later hlater hlinger r hr r' hr'
        rcases List.mem_append.mp hlater with hlater | hlater
        · obtain ⟨source, hsource, hmem⟩ := hregroup.mem_requests hlater hr'
          exact hfirst source (List.mem_append_left _ hsource) hlinger r hr r' hmem
        · exact hfirst later (List.mem_append_right _ hlater) hlinger r hr r' hr'
  | @merge batch next queue queue' hbatch hnext hregroup ih =>
      obtain ⟨hfirst, hrest⟩ := List.pairwise_cons.mp holder
      obtain ⟨hsecond, htail⟩ := List.pairwise_cons.mp hrest
      -- The two merged request lists are increasing across the seam.
      have hseam := hfirst next List.mem_cons_self hbatch
      refine ih ?_ (List.pairwise_cons.mpr ⟨?_, htail⟩)
      · intro b hb
        rcases List.mem_cons.mp hb with rfl | hb
        · rw [requests_merge, List.nodup_append]
          refine ⟨hnodup batch (by simp), hnodup next (by simp), ?_⟩
          intro r hr r' hr'
          exact Nat.ne_of_lt (hseam r hr r' hr')
        · exact hnodup b (by simp [hb])
      · intro later hlater _ r hr r' hr'
        rw [requests_merge] at hr
        rcases List.mem_append.mp hr with hr | hr
        · exact hfirst later (List.mem_cons_of_mem _ hlater) hbatch r hr r' hr'
        · exact hsecond later hlater hnext r hr r' hr'

/-- What holds along a line of batches whose requests are below `bound`. -/
structure Lined (bound : Nat) (line : List (CopyBatch α)) : Prop where
  nodup : ∀ batch ∈ line, batch.requests.Nodup
  older : line.Pairwise Older
  bounded : ∀ batch ∈ line, ∀ r ∈ batch.requests, r < bound

namespace Lined

variable {bound : Nat} {front back : List (CopyBatch α)}

theorem left (h : Lined bound (front ++ back)) : Lined bound front where
  nodup batch hbatch := h.nodup batch (List.mem_append_left _ hbatch)
  older := (List.pairwise_append.mp h.older).1
  bounded batch hbatch := h.bounded batch (List.mem_append_left _ hbatch)

theorem right (h : Lined bound (front ++ back)) : Lined bound back where
  nodup batch hbatch := h.nodup batch (List.mem_append_right _ hbatch)
  older := (List.pairwise_append.mp h.older).2.1
  bounded batch hbatch := h.bounded batch (List.mem_append_right _ hbatch)

theorem insert (h : Lined bound (front ++ back)) {batch : CopyBatch α}
    (hnodup : batch.requests.Nodup) (hfront : ∀ first ∈ front, Older first batch)
    (hback : ∀ later ∈ back, Older batch later)
    (hbound : ∀ r ∈ batch.requests, r < bound) :
    Lined bound (front ++ batch :: back) := by
  have hmem : ∀ b ∈ front ++ batch :: back, b = batch ∨ b ∈ front ++ back := by
    intro b hb
    simp only [List.mem_append, List.mem_cons] at hb ⊢
    tauto
  obtain ⟨hleft, hright, hacross⟩ := List.pairwise_append.mp h.older
  refine ⟨?_, ?_, ?_⟩
  · intro b hb
    rcases hmem b hb with rfl | hb
    · exact hnodup
    · exact h.nodup b hb
  · apply List.pairwise_append.mpr
    refine ⟨hleft, List.pairwise_cons.mpr ⟨hback, hright⟩, ?_⟩
    intro first hfirst b hb
    rcases List.mem_cons.mp hb with rfl | hb
    · exact hfront first hfirst
    · exact hacross first hfirst b hb
  · intro b hb
    rcases hmem b hb with rfl | hb
    · exact hbound
    · exact h.bounded b hb

theorem concat (h : Lined bound front) {batch : CopyBatch α}
    (hnodup : batch.requests.Nodup) (hfront : ∀ first ∈ front, Older first batch)
    (hbound : ∀ r ∈ batch.requests, r < bound) :
    Lined bound (front ++ [batch]) := by
  rw [← List.append_nil front] at h
  exact h.insert hnodup hfront (by simp) hbound

theorem regroup {queue queue' behind : List (CopyBatch α)}
    (h : Lined bound (queue ++ behind)) (hregroup : Regroup queue queue') :
    Lined bound (queue' ++ behind) := by
  obtain ⟨hnodup, holder⟩ := hregroup.older behind h.left.nodup h.older
  refine ⟨?_, holder, ?_⟩
  · intro b hb
    rcases List.mem_append.mp hb with hb | hb
    · exact hnodup b hb
    · exact h.right.nodup b hb
  · intro b hb r hr
    rcases List.mem_append.mp hb with hb | hb
    · obtain ⟨source, hsource, hmem⟩ := hregroup.mem_requests hb hr
      exact h.left.bounded source hsource r hmem
    · exact h.right.bounded b hb r hr

end Lined

namespace Batcher

/-- The batches that are not dispatched, in queue order. -/
def waiting (s : Batcher α ε) : List (CopyBatch α) :=
  s.queue ++ s.active.toList

structure OrderInv (s : Batcher α ε) : Prop where
  nodup : ∀ batch ∈ s.waiting, batch.requests.Nodup
  runner_nodup : ∀ runner ∈ s.runners, runner.batch.requests.Nodup
  older : s.waiting.Pairwise Older
  bounded : ∀ batch ∈ s.waiting, ∀ r ∈ batch.requests, r < s.requests.length
  runner_bounded : ∀ runner ∈ s.runners, ∀ r ∈ runner.batch.requests,
    r < s.requests.length
  newest : ∀ holder ∈ s.lock, holder.request + 1 = s.requests.length
  fresh : ∀ holder ∈ s.lock, holder.rows ≠ [] →
    ∀ batch ∈ s.active, holder.request ∉ batch.requests
  linger : ∀ holder ∈ s.lock, ∀ batch ∈ s.queue,
    batch.reason = some .linger → holder.request ∉ batch.requests
  undispatched : ∀ holder ∈ s.lock, ∀ runner ∈ s.runners,
    holder.request ∉ runner.batch.requests

theorem initial_orderInv (config : BatcherConfig) :
    (Batcher.initial config : Batcher α ε).OrderInv where
  nodup := nofun
  runner_nodup := nofun
  older := .nil
  bounded := nofun
  runner_bounded := nofun
  newest := nofun
  fresh := nofun
  linger := nofun
  undispatched := nofun

/-- Replacing a goroutine by one with the same batch keeps the batches. -/
theorem exists_of_mem_set {runners : List (Runner α ε)} {i : Nat}
    {r r' runner : Runner α ε} (hrunner : runners[i]? = some r)
    (hbatch : r'.batch = r.batch) (hmem : runner ∈ runners.set i r') :
    ∃ source ∈ runners, source.batch = runner.batch := by
  rcases List.mem_or_eq_of_mem_set hmem with hmem | rfl
  · exact ⟨runner, hmem, rfl⟩
  · exact ⟨r, List.mem_of_getElem? hrunner, hbatch.symm⟩

/-- Invariance under changes of goroutines that keep their batches. -/
theorem OrderInv.congr {s s' : Batcher α ε} (h : s.OrderInv)
    (hrunners : ∀ runner ∈ s'.runners,
      ∃ source ∈ s.runners, source.batch = runner.batch)
    (hqueue : s'.queue = s.queue) (hactive : s'.active = s.active)
    (hlock : s'.lock = s.lock)
    (hlength : s'.requests.length = s.requests.length) : s'.OrderInv := by
  have hwaiting : s'.waiting = s.waiting := by rw [waiting, hqueue, hactive, waiting]
  refine ⟨?_, ?_, ?_, ?_, ?_, ?_, ?_, ?_, ?_⟩
  · rw [hwaiting]
    exact h.nodup
  · intro runner hrunner
    obtain ⟨source, hsource, hbatch⟩ := hrunners runner hrunner
    rw [← hbatch]
    exact h.runner_nodup source hsource
  · rw [hwaiting]
    exact h.older
  · rw [hwaiting, hlength]
    exact h.bounded
  · intro runner hrunner
    obtain ⟨source, hsource, hbatch⟩ := hrunners runner hrunner
    rw [← hbatch, hlength]
    exact h.runner_bounded source hsource
  · rw [hlock, hlength]
    exact h.newest
  · rw [hlock, hactive]
    exact h.fresh
  · rw [hlock, hqueue]
    exact h.linger
  · rw [hlock]
    intro holder hholder runner hrunner
    obtain ⟨source, hsource, hbatch⟩ := hrunners runner hrunner
    rw [← hbatch]
    exact h.undispatched holder hholder source hsource

theorem OrderInv.lt_holder {s : Batcher α ε} (h : s.OrderInv)
    {holder : Submitting α} (held : s.lock = some holder)
    {batch : CopyBatch α} (hbatch : batch ∈ s.queue)
    (hlinger : batch.reason = some .linger) {r : Nat}
    (hr : r ∈ batch.requests) : r < holder.request := by
  have hbound := h.bounded batch (List.mem_append_left _ hbatch) r hr
  have hnewest := h.newest holder held
  have hne : r ≠ holder.request := by
    rintro rfl
    exact h.linger holder held batch hbatch hlinger hr
  omega

theorem Current.active_of_mem {s : Batcher α ε} {batch : CopyBatch α}
    {timers : List Timer} {nextBatch : Nat}
    (current : s.Current batch timers nextBatch) {r : Nat}
    (hr : r ∈ batch.requests) : s.active = some batch := by
  rcases current with ⟨hactive, -, -⟩ | ⟨-, rfl, -, -⟩
  · exact hactive
  · simp [CopyBatch.requests] at hr

theorem Current.waiting_parts {s : Batcher α ε} {batch : CopyBatch α}
    {timers : List Timer} {nextBatch : Nat}
    (current : s.Current batch timers nextBatch) (request : Nat)
    (rows : List α) :
    (s.queue ++ [batch.append request rows]).flatMap CopyBatch.parts =
      s.waiting.flatMap CopyBatch.parts ++ [⟨request, rows⟩] := by
  rcases current with ⟨hactive, -, -⟩ | ⟨hactive, rfl, -, -⟩ <;>
    simp [waiting, hactive, CopyBatch.append]

/-- An unbatched batch goes behind the queue, before the active batch. -/
theorem unbatched_parts (s : Batcher α ε) (batch : CopyBatch α) :
    ((s.queue ++ [batch] ++ s.active.toList).flatMap CopyBatch.parts).Perm
      (s.waiting.flatMap CopyBatch.parts ++ batch.parts) := by
  simp only [waiting, List.flatMap_append, List.append_assoc,
    List.flatMap_singleton]
  exact List.perm_append_comm.append_left _

/-- What appending a part of the lock holder's request does to its batch. -/
theorem OrderInv.append {s : Batcher α ε} (h : s.OrderInv)
    {holder : Submitting α} (held : s.lock = some holder)
    (nonempty : holder.rows ≠ []) {batch : CopyBatch α} {timers : List Timer}
    {nextBatch : Nat} (current : s.Current batch timers nextBatch)
    (rows : List α) :
    (batch.append holder.request rows).requests.Nodup ∧
      (∀ first ∈ s.queue, Older first (batch.append holder.request rows)) ∧
      ∀ r ∈ (batch.append holder.request rows).requests,
        r < s.requests.length := by
  have hactive : ∀ r ∈ batch.requests, batch ∈ s.waiting := by
    intro r hr
    rw [waiting, current.active_of_mem hr]
    simp
  rw [requests_append]
  refine ⟨?_, ?_, ?_⟩
  · rw [List.nodup_append]
    refine ⟨?_, List.nodup_singleton _, ?_⟩
    · cases hreq : batch.requests with
      | nil => exact .nil
      | cons r requests =>
          rw [← hreq]
          exact h.nodup batch (hactive r (by simp [hreq]))
    · rintro r hr r' hr' rfl
      rw [List.mem_singleton] at hr'
      subst hr'
      exact h.fresh holder held nonempty batch (current.active_of_mem hr) hr
  · intro first hfirst hlinger r hr r' hr'
    rw [requests_append] at hr'
    rcases List.mem_append.mp hr' with hr' | hr'
    · have hpair := (List.pairwise_append.mp h.older).2.2 first hfirst batch
        (by simp [current.active_of_mem hr'])
      exact hpair hlinger r hr r' hr'
    · rw [List.mem_singleton.mp hr']
      exact h.lt_holder held hfirst hlinger hr
  · intro r hr
    rcases List.mem_append.mp hr with hr | hr
    · exact h.bounded batch (hactive r hr) r hr
    · have hnewest := h.newest holder held
      rw [List.mem_singleton.mp hr]
      omega

theorem OrderInv.lined {s : Batcher α ε} (h : s.OrderInv) :
    Lined s.requests.length (s.queue ++ s.active.toList) :=
  ⟨h.nodup, h.older, h.bounded⟩

/-- Without a lock holder only the batches count. -/
theorem OrderInv.of_free {s : Batcher α ε} (free : s.lock = none)
    (hline : Lined s.requests.length s.waiting)
    (hrunners : ∀ runner ∈ s.runners, runner.batch.requests.Nodup ∧
      ∀ r ∈ runner.batch.requests, r < s.requests.length) : s.OrderInv where
  nodup := hline.nodup
  runner_nodup runner hrunner := (hrunners runner hrunner).1
  older := hline.older
  bounded := hline.bounded
  runner_bounded runner hrunner := (hrunners runner hrunner).2
  newest := by simp [free]
  fresh := by simp [free]
  linger := by simp [free]
  undispatched := by simp [free]

/-- The lock holder places rows of its request. -/
theorem OrderInv.place {s s' : Batcher α ε} (h : s.OrderInv)
    {holder holder' : Submitting α} (held : s.lock = some holder)
    (hlock : s'.lock = some holder') (hrequest : holder'.request = holder.request)
    (hlength : s'.requests.length = s.requests.length) (hrunners : s'.runners = s.runners)
    (hline : Lined s.requests.length s'.waiting)
    (hfresh : holder'.rows = [] ∨ s'.active = none)
    (hlinger : ∀ batch ∈ s'.queue, batch.reason = some .linger → batch ∈ s.queue) :
    s'.OrderInv := by
  refine ⟨hline.nodup, ?_, hline.older, ?_, ?_, ?_, ?_, ?_, ?_⟩
  · rw [hrunners]
    exact h.runner_nodup
  · rw [hlength]
    exact hline.bounded
  · rw [hrunners, hlength]
    exact h.runner_bounded
  · rw [hlock, hlength]
    rintro _ ⟨⟩
    rw [hrequest]
    exact h.newest holder held
  · rw [hlock]
    rintro _ ⟨⟩ hrows batch hbatch
    rcases hfresh with hempty | hnone
    · exact absurd hempty hrows
    · rw [hnone] at hbatch
      cases hbatch
  · rw [hlock]
    rintro _ ⟨⟩ batch hbatch hreason
    rw [hrequest]
    exact h.linger holder held batch (hlinger batch hbatch hreason) hreason
  · rw [hlock, hrunners]
    rintro _ ⟨⟩
    rw [hrequest]
    exact h.undispatched holder held

theorem OrderInv.move {s s' : Batcher α ε} (h : s.OrderInv)
    (hmove : Move s s') : s'.OrderInv := by
  have hwaiting : ∀ batch, batch ∈ s.waiting ↔
      batch ∈ s.queue ∨ s.active = some batch := by
    intro batch
    simp [waiting]
  cases hmove with
  | @accept rows coalesce free nonempty =>
      have hlt : ∀ {r}, r < s.requests.length →
          r < (s.requests ++ [newCopyRequest rows.length]).length := by
        intro r hr
        simp
        omega
      refine ⟨h.nodup, h.runner_nodup, h.older,
        fun batch hbatch r hr => hlt (h.bounded batch hbatch r hr),
        fun runner hrunner r hr => hlt (h.runner_bounded runner hrunner r hr),
        ?_, ?_, ?_, ?_⟩
      · rintro holder ⟨⟩
        simp [accept]
      · rintro holder ⟨⟩ - batch hbatch hmem
        exact Nat.lt_irrefl _
          (h.bounded batch ((hwaiting batch).mpr (.inr hbatch)) _ hmem)
      · rintro holder ⟨⟩ batch hbatch - hmem
        exact Nat.lt_irrefl _
          (h.bounded batch ((hwaiting batch).mpr (.inl hbatch)) _ hmem)
      · rintro holder ⟨⟩ runner hrunner hmem
        exact Nat.lt_irrefl _ (h.runner_bounded runner hrunner _ hmem)
  | @extend holder batch timers nextBatch held coalesce nonempty current room =>
      obtain ⟨hnodup, holder', hbound⟩ :=
        h.append held nonempty current holder.rows
      have hline := h.lined.left.concat hnodup holder' hbound
      exact h.place held rfl rfl (List.length_modify _ _ _) rfl hline (.inl rfl)
        fun batch hbatch _ => hbatch
  | @fill holder batch timers timers' nextBatch rowCount held coalesce positive
      within current full =>
      have nonempty : holder.rows ≠ [] := by
        intro hnil
        rw [hnil] at within
        simp at within
        omega
      obtain ⟨hnodup, holder', hbound⟩ :=
        h.append held nonempty current (holder.rows.take rowCount)
      have hline : Lined s.requests.length (s.queue ++
          [(batch.append holder.request (holder.rows.take rowCount)).detached .full]) :=
        h.lined.left.concat hnodup holder' hbound
      refine h.place held rfl rfl (List.length_modify _ _ _) rfl (by simpa [waiting] using hline)
        (.inr rfl) ?_
      intro b hb hlinger
      rcases List.mem_append.mp hb with hb | hb
      · exact hb
      · rw [List.mem_singleton.mp hb] at hlinger
        simp [CopyBatch.detached] at hlinger
  | @unbatched holder held coalesce nonempty =>
      have hnew : CopyBatch.requests (⟨s.nextBatch,
          [⟨holder.request, holder.rows⟩], none, some .unbatched⟩ :
            CopyBatch α) = [holder.request] := rfl
      have hnewest := h.newest holder held
      have hline : Lined s.requests.length (s.queue ++ ⟨s.nextBatch,
          [⟨holder.request, holder.rows⟩], none, some .unbatched⟩ :: s.active.toList) := by
        apply h.lined.insert
        · rw [hnew]
          exact List.nodup_singleton _
        · intro first hfirst hlinger r hr r' hr'
          rw [hnew, List.mem_singleton] at hr'
          rw [hr']
          exact h.lt_holder held hfirst hlinger hr
        · -- Nothing is required behind an unbatched batch.
          intro later _ hlinger
          simp at hlinger
        · intro r hr
          rw [hnew, List.mem_singleton] at hr
          omega
      refine h.place held rfl rfl (List.length_modify _ _ _) rfl (by simpa [waiting] using hline)
        (.inl rfl) ?_
      intro b hb hlinger
      rcases List.mem_append.mp hb with hb | hb
      · exact hb
      · rw [List.mem_singleton.mp hb] at hlinger
        simp at hlinger
  | release held placed =>
      refine ⟨h.nodup, h.runner_nodup, h.older, h.bounded, h.runner_bounded,
        ?_, ?_, ?_, ?_⟩
      all_goals rintro _ ⟨⟩
  | @detach batch reason timers free active cause =>
      have hmem : batch ∈ s.waiting := (hwaiting batch).mpr (.inr active)
      have holder : ∀ first ∈ s.queue, Older first batch := by
        intro first hfirst
        apply (List.pairwise_append.mp h.older).2.2 first hfirst
        simp [active]
      have hline : Lined s.requests.length (s.queue ++ [batch.detached reason]) :=
        h.lined.left.concat (h.nodup batch hmem) holder (h.bounded batch hmem)
      exact .of_free free (by simpa [waiting] using hline)
        fun runner hrunner => ⟨h.runner_nodup runner hrunner, h.runner_bounded runner hrunner⟩
  | @schedule batches rest free regroup capacity =>
      have hline := h.lined.regroup regroup
      rw [List.append_assoc] at hline
      refine .of_free free hline.right fun runner hrunner => ?_
      rcases List.mem_append.mp hrunner with hrunner | hrunner
      · exact ⟨h.runner_nodup runner hrunner, h.runner_bounded runner hrunner⟩
      · obtain ⟨b, hb, rfl⟩ := List.mem_map.mp hrunner
        exact ⟨hline.left.nodup b hb, hline.left.bounded b hb⟩
  | copyReturns runner =>
      exact h.congr (fun _ => exists_of_mem_set runner rfl) rfl rfl rfl rfl
  | finishPart runner found more =>
      exact h.congr (fun _ => exists_of_mem_set runner rfl) rfl rfl rfl (by simp)
  | finishLast runner found last =>
      exact h.congr (fun _ => exists_of_mem_set runner rfl) rfl rfl rfl (by simp)
  | resolve runner =>
      exact h.congr (fun _ => exists_of_mem_set runner rfl) rfl rfl rfl (by simp)
  | retire free runner =>
      exact h.congr (fun _ => exists_of_mem_set runner rfl) rfl rfl rfl rfl
  | timer live =>
      exact h.congr (fun r hr => ⟨r, hr, rfl⟩) rfl rfl rfl rfl
  | flush free inactive order_perm =>
      exact h.congr (fun r hr => ⟨r, hr, rfl⟩) rfl rfl rfl rfl
  | awaitFuture waiting found settled =>
      exact h.congr (fun r hr => ⟨r, hr, rfl⟩) rfl rfl rfl rfl
  | flushReturns waiting =>
      exact h.congr (fun r hr => ⟨r, hr, rfl⟩) rfl rfl rfl rfl

end Batcher

end PgMesh.Copy
