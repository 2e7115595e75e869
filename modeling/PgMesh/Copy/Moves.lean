import PgMesh.Copy.Queue
import PgMesh.Foundation.ListUpdate
import Mathlib.Logic.Relation

/-!
# What one step can do

`Move` lists the elementary changes of a batcher.  Every step is a sequence
of moves (`step_moves`), so an invariant is proved once for each move and
then holds in every reachable state (`Reachable.invariant`).
-/

namespace PgMesh.Copy

open PgMesh.Foundation

variable {α ε : Type}

namespace Batcher

/-- The active batch is not full, and each of its parts has a row. -/
structure ActiveInv (s : Batcher α ε) : Prop where
  reason : ∀ batch ∈ s.active, batch.reason = none
  parts : ∀ batch ∈ s.active, batch.parts ≠ []
  rows : ∀ batch ∈ s.active, ∀ part ∈ batch.parts, part.rows ≠ []
  limit : ∀ batch ∈ s.active, 0 < s.config.maxRowsPerBatch →
    (batch.rows.length : Int) < s.config.maxRowsPerBatch

/-- The batch to which `appendRequestLocked` appends, opened if need be. -/
def Current (s : Batcher α ε) (batch : CopyBatch α) (timers : List Timer)
    (nextBatch : Nat) : Prop :=
  (s.active = some batch ∧ timers = s.timers ∧ nextBatch = s.nextBatch) ∨
  (s.active = none ∧ batch = ⟨s.nextBatch, [], some s.timers.length, none⟩ ∧
    timers = s.timers ++ [⟨s.nextBatch, .armed⟩] ∧
    nextBatch = s.nextBatch + 1)

def Full (s : Batcher α ε) (batch : CopyBatch α) : Prop :=
  0 < s.config.maxRowsPerBatch ∧
    (batch.rows.length : Int) = s.config.maxRowsPerBatch

/-- The timer of a batch is armed, or its callback waits for the lock. -/
def Live (timers : List Timer) (batch : CopyBatch α) : Prop :=
  ∃ timer status, batch.timer = some timer ∧
    timers[timer]? = some ⟨batch.id, status⟩ ∧
    (status = .armed ∨ status = .fired)

inductive Move : Batcher α ε → Batcher α ε → Prop
  | accept {s : Batcher α ε} {rows : List α} {coalesce : Bool}
      (free : s.lock = none) (nonempty : rows ≠ []) :
      Move s (s.accept rows coalesce)
  | extend {s : Batcher α ε} {holder : Submitting α} {batch : CopyBatch α}
      {timers : List Timer} {nextBatch : Nat}
      (held : s.lock = some holder) (coalesce : holder.coalesce = true)
      (nonempty : holder.rows ≠ [])
      (current : s.Current batch timers nextBatch)
      (room : 0 < s.config.maxRowsPerBatch →
        ((batch.append holder.request holder.rows).rows.length : Int) <
          s.config.maxRowsPerBatch) :
      Move s { s with
        active := some (batch.append holder.request holder.rows)
        timers := timers
        nextBatch := nextBatch
        requests := s.requests.modify holder.request CopyRequest.addPart
        lock := some { holder with rows := [] } }
  | fill {s : Batcher α ε} {holder : Submitting α} {batch : CopyBatch α}
      {timers timers' : List Timer} {nextBatch rowCount : Nat}
      (held : s.lock = some holder) (coalesce : holder.coalesce = true)
      (positive : 0 < rowCount) (within : rowCount ≤ holder.rows.length)
      (current : s.Current batch timers nextBatch)
      (full : s.Full
        (batch.append holder.request (holder.rows.take rowCount))) :
      Move s { s with
        active := none
        queue := s.queue ++
          [(batch.append holder.request
            (holder.rows.take rowCount)).detached .full]
        timers := timers'
        nextBatch := nextBatch
        requests := s.requests.modify holder.request CopyRequest.addPart
        lock := some { holder with rows := holder.rows.drop rowCount } }
  | unbatched {s : Batcher α ε} {holder : Submitting α}
      (held : s.lock = some holder) (coalesce : holder.coalesce = false)
      (nonempty : holder.rows ≠ []) :
      Move s { s with
        queue := s.queue ++
          [⟨s.nextBatch, [⟨holder.request, holder.rows⟩], none,
            some .unbatched⟩]
        nextBatch := s.nextBatch + 1
        requests := s.requests.modify holder.request CopyRequest.addPart
        lock := some { holder with rows := [] } }
  | release {s : Batcher α ε} {holder : Submitting α}
      (held : s.lock = some holder) (placed : holder.rows = []) :
      Move s { s with lock := none }
  | detach {s : Batcher α ε} {batch : CopyBatch α} {reason : FlushReason}
      {timers : List Timer}
      (free : s.lock = none) (active : s.active = some batch)
      (cause : reason = .linger ∨ reason = .manual) :
      Move s { s with
        active := none
        queue := s.queue ++ [batch.detached reason]
        timers := timers }
  | schedule {s : Batcher α ε} {batches rest : List (CopyBatch α)}
      (free : s.lock = none) (regroup : Regroup s.queue (batches ++ rest))
      (capacity : s.inFlight ≤ s.config.maxConcurrentBatches →
        s.inFlight + batches.length ≤ s.config.maxConcurrentBatches) :
      Move s { s with
        queue := rest
        inFlight := s.inFlight + batches.length
        runners := s.runners ++ batches.map Runner.start }
  | timer {s : Batcher α ε} {timers : List Timer}
      (live : ∀ batch ∈ s.active, Live s.timers batch → Live timers batch) :
      Move s { s with timers := timers }
  | copyReturns {s : Batcher α ε} {i : Nat} {batch : CopyBatch α}
      {outcome : Option (Int64 × Option (GoError ε))} {count : Int64}
      {err : Option (GoError ε)}
      (runner : s.runners[i]? = some ⟨batch, outcome, .copying⟩) :
      Move s { s with
        runners := s.runners.set i
          ⟨batch, some (count, err), .finishing batch.requests []⟩ }
  | finishPart {s : Batcher α ε} {i request : Nat} {batch : CopyBatch α}
      {outcome : Option (Int64 × Option (GoError ε))}
      {remaining completed : List Nat} {r : CopyRequest ε}
      (runner : s.runners[i]? =
        some ⟨batch, outcome, .finishing (request :: remaining) completed⟩)
      (found : s.requests[request]? = some r)
      (more : r.pendingParts - 1 ≠ 0) :
      Move s { s with
        requests := s.requests.set request
          { r with
            errs := r.errs ++ (Runner.err ⟨batch, outcome, .copying⟩).toList
            pendingParts := r.pendingParts - 1 }
        runners := s.runners.set i
          ⟨batch, outcome, .finishing remaining completed⟩ }
  | finishLast {s : Batcher α ε} {i request : Nat} {batch : CopyBatch α}
      {outcome : Option (Int64 × Option (GoError ε))}
      {remaining completed : List Nat} {r : CopyRequest ε}
      (runner : s.runners[i]? =
        some ⟨batch, outcome, .finishing (request :: remaining) completed⟩)
      (found : s.requests[request]? = some r)
      (last : r.pendingParts - 1 = 0) :
      Move s { s with
        requests := s.requests.set request
          { r with
            errs := r.errs ++ (Runner.err ⟨batch, outcome, .copying⟩).toList
            pendingParts := r.pendingParts - 1 }
        runners := s.runners.set i
          ⟨batch, outcome, .resolving request
            (GoError.join
              (r.errs ++ (Runner.err ⟨batch, outcome, .copying⟩).toList))
            remaining completed⟩ }
  | resolve {s : Batcher α ε} {i request : Nat} {batch : CopyBatch α}
      {outcome : Option (Int64 × Option (GoError ε))}
      {err : Option (GoError ε)} {remaining completed : List Nat}
      (runner : s.runners[i]? =
        some ⟨batch, outcome, .resolving request err remaining completed⟩) :
      Move s { s with
        requests := s.requests.modify request (·.resolve err)
        runners := s.runners.set i
          ⟨batch, outcome, .finishing remaining (completed ++ [request])⟩ }
  | retire {s : Batcher α ε} {i : Nat} {batch : CopyBatch α}
      {outcome : Option (Int64 × Option (GoError ε))} {completed : List Nat}
      (free : s.lock = none)
      (runner : s.runners[i]? =
        some ⟨batch, outcome, .finishing [] completed⟩) :
      Move s { s with
        pending := s.pending.filter (· ∉ completed)
        inFlight := s.inFlight - 1
        runners := s.runners.set i ⟨batch, outcome, .exited⟩ }
  | flush {s : Batcher α ε} {order : List Nat}
      (free : s.lock = none) (inactive : s.active = none)
      (order_perm : order.Perm s.pending) :
      Move s { s with
        flushes := s.flushes ++
          [⟨s.requests.length, order, order, [], Future.new⟩] }
  | awaitFuture {s : Batcher α ε} {k request : Nat} {barrier : Nat}
      {futures remaining : List Nat} {errs : List (GoError ε)}
      {result : Future Unit ε} {r : CopyRequest ε} {value : Int64}
      {err : Option (GoError ε)}
      (waiting : s.flushes[k]? =
        some ⟨barrier, futures, request :: remaining, errs, result⟩)
      (found : s.requests[request]? = some r)
      (settled : r.result.outcome = some (value, err)) :
      Move s { s with
        flushes := s.flushes.set k
          ⟨barrier, futures, remaining, errs ++ err.toList, result⟩ }
  | flushReturns {s : Batcher α ε} {k : Nat} {barrier : Nat}
      {futures : List Nat} {errs : List (GoError ε)}
      (waiting : s.flushes[k]? =
        some ⟨barrier, futures, [], errs, Future.new⟩) :
      Move s { s with
        flushes := s.flushes.set k
          ⟨barrier, futures, [], errs,
            Future.resolved () (GoError.join errs)⟩ }

/-! ## Every step is a sequence of moves -/

@[simp] theorem rows_append (batch : CopyBatch α) (request : Nat)
    (rows : List α) :
    (batch.append request rows).rows = batch.rows ++ rows := by
  simp [CopyBatch.append, CopyBatch.rows]

@[simp] theorem requests_append (batch : CopyBatch α) (request : Nat)
    (rows : List α) :
    (batch.append request rows).requests = batch.requests ++ [request] := by
  simp [CopyBatch.append, CopyBatch.requests]

theorem Current.limit {s : Batcher α ε} {batch : CopyBatch α}
    {timers : List Timer} {nextBatch : Nat}
    (current : s.Current batch timers nextBatch) (h : s.ActiveInv)
    (bounded : 0 < s.config.maxRowsPerBatch) :
    (batch.rows.length : Int) < s.config.maxRowsPerBatch := by
  rcases current with ⟨hactive, -, -⟩ | ⟨-, rfl, -, -⟩
  · exact h.limit batch hactive bounded
  · simpa [CopyBatch.rows] using bounded

theorem enqueueActive_of_active {s : Batcher α ε} {batch : CopyBatch α}
    (hactive : s.active = some batch) (hrows : batch.rows ≠ [])
    (reason : FlushReason) :
    ∃ timers, s.enqueueActive reason = { s with
      active := none
      queue := s.queue ++ [batch.detached reason]
      timers := timers } := by
  have hlength : ¬(batch.detached reason).rows.length = 0 :=
    fun h => hrows (List.length_eq_zero_iff.mp h)
  cases htimer : batch.timer with
  | none =>
      refine ⟨s.timers, ?_⟩
      simp only [enqueueActive, detachActiveLocked, hactive, htimer, stopTimer,
        enqueueLocked, if_neg hlength]
  | some timer =>
      refine ⟨s.timers.modify timer Timer.stop, ?_⟩
      simp only [enqueueActive, detachActiveLocked, hactive, htimer, stopTimer,
        enqueueLocked, if_neg hlength]

theorem enqueueActive_of_none {s : Batcher α ε} (hactive : s.active = none)
    (reason : FlushReason) : s.enqueueActive reason = s := by
  simp [enqueueActive, detachActiveLocked, hactive, enqueueLocked]

/-- One iteration either places every row or fills the batch. -/
theorem appendToActive_spec {s : Batcher α ε} {batch : CopyBatch α}
    {rows : List α} (request : Nat) (hrows : rows ≠ [])
    (limit : 0 < s.config.maxRowsPerBatch →
      (batch.rows.length : Int) < s.config.maxRowsPerBatch) :
    (((0 < s.config.maxRowsPerBatch →
        ((batch.append request rows).rows.length : Int) <
          s.config.maxRowsPerBatch)) ∧
      s.appendToActive batch rows request =
        ({ s with
            active := some (batch.append request rows)
            requests := s.requests.modify request CopyRequest.addPart }, [])) ∨
    ∃ rowCount timers, 0 < rowCount ∧ rowCount ≤ rows.length ∧
      s.Full (batch.append request (rows.take rowCount)) ∧
      s.appendToActive batch rows request =
        ({ s with
            active := none
            queue := s.queue ++
              [(batch.append request (rows.take rowCount)).detached .full]
            timers := timers
            requests := s.requests.modify request CopyRequest.addPart },
          rows.drop rowCount) := by
  have hlength : 0 < rows.length := List.length_pos_iff.mpr hrows
  by_cases hbounded : 0 < s.config.maxRowsPerBatch
  · have hlimit := limit hbounded
    generalize hk : (min (rows.length : Int)
      (s.config.maxRowsPerBatch - batch.rows.length)).toNat = k
    have hk0 : 0 < k := by omega
    have hkle : k ≤ rows.length := by omega
    by_cases hfull : ((batch.append request (rows.take k)).rows.length : Int) =
        s.config.maxRowsPerBatch
    · right
      have hne : (batch.append request (rows.take k)).rows ≠ [] := by
        intro hnil
        rw [hnil] at hfull
        simp at hfull
        omega
      obtain ⟨timers, htimers⟩ := enqueueActive_of_active
        (s := { s with active := some (batch.append request (rows.take k)) }.addPart
          request) rfl hne .full
      refine ⟨k, timers, hk0, hkle, ⟨hbounded, hfull⟩, ?_⟩
      simp only [appendToActive, if_pos hbounded, hk]
      rw [if_pos ⟨hbounded, hfull⟩, htimers]
      simp [addPart]
    · left
      have hall : k = rows.length := by
        rw [rows_append, List.length_append, List.length_take_of_le hkle] at hfull
        omega
      subst hall
      rw [List.take_length] at hfull
      refine ⟨fun _ => ?_, ?_⟩
      · rw [rows_append, List.length_append] at hfull ⊢
        omega
      · simp only [appendToActive, if_pos hbounded, hk, List.take_length,
          List.drop_length]
        rw [if_neg (fun h => hfull h.2)]
        simp [addPart]
  · left
    refine ⟨fun h => absurd h hbounded, ?_⟩
    simp only [appendToActive, if_neg hbounded, List.take_length,
      List.drop_length]
    rw [if_neg (fun h => hbounded h.1)]
    simp [addPart]

theorem enqueueUnbatchedLocked_eq {s : Batcher α ε} {rows : List α}
    {request : Nat} (hrows : rows ≠ []) :
    s.enqueueUnbatchedLocked rows request = { s with
      queue := s.queue ++
        [⟨s.nextBatch, [⟨request, rows⟩], none, some .unbatched⟩]
      nextBatch := s.nextBatch + 1
      requests := s.requests.modify request CopyRequest.addPart } := by
  simp [enqueueUnbatchedLocked, addPart, enqueueLocked, CopyBatch.rows, hrows]

theorem appendRequestLocked_eq (s : Batcher α ε) :
    ∃ batch timers nextBatch, s.Current batch timers nextBatch ∧
      ∀ rows request, s.appendRequestLocked rows request =
        { s with
          active := some batch
          timers := timers
          nextBatch := nextBatch }.appendToActive batch rows request := by
  cases hactive : s.active with
  | none =>
      refine ⟨_, _, _, .inr ⟨hactive, rfl, rfl, rfl⟩, fun rows request => ?_⟩
      simp only [appendRequestLocked, hactive, openBatchLocked]
  | some batch =>
      refine ⟨batch, s.timers, s.nextBatch, .inl ⟨hactive, rfl, rfl⟩,
        fun rows request => ?_⟩
      simp only [appendRequestLocked, hactive]
      rw [← hactive]

theorem ActiveInv.rows_ne_nil {s : Batcher α ε} (h : s.ActiveInv)
    {batch : CopyBatch α} (hactive : s.active = some batch) :
    batch.rows ≠ [] := by
  obtain ⟨part, parts, hparts⟩ := List.exists_cons_of_ne_nil (h.parts batch hactive)
  have hpart := h.rows batch hactive part (by simp [hparts])
  simp [CopyBatch.rows, hparts, hpart]

theorem ActiveInv.move {s s' : Batcher α ε} (h : s.ActiveInv)
    (hmove : Move s s') : s'.ActiveInv := by
  cases hmove with
  | @extend holder batch timers nextBatch held coalesce nonempty current room =>
      have hbatch : batch.reason = none ∧
          ∀ part ∈ batch.parts, part.rows ≠ [] := by
        rcases current with ⟨hactive, -, -⟩ | ⟨-, rfl, -, -⟩
        · exact ⟨h.reason batch hactive, h.rows batch hactive⟩
        · simp
      refine ⟨?_, ?_, ?_, ?_⟩
      · rintro _ ⟨⟩
        exact hbatch.1
      · rintro _ ⟨⟩
        simp [CopyBatch.append]
      · rintro _ ⟨⟩ part hpart
        rcases List.mem_append.mp hpart with hpart | hpart
        · exact hbatch.2 part hpart
        · rw [List.mem_singleton.mp hpart]
          exact nonempty
      · rintro _ ⟨⟩
        exact room
  | fill => exact ⟨nofun, nofun, nofun, nofun⟩
  | detach => exact ⟨nofun, nofun, nofun, nofun⟩
  | _ => exact ⟨h.reason, h.parts, h.rows, h.limit⟩

/-- A sequence of moves. -/
abbrev Moves : Batcher α ε → Batcher α ε → Prop :=
  Relation.ReflTransGen Move

theorem schedule_moves {s : Batcher α ε} (free : s.lock = none) :
    Moves s s.schedule := by
  obtain ⟨batches, rest, hregroup, heq, -, hcapacity⟩ := s.schedule_spec
  rw [heq]
  exact .single (.schedule free hregroup hcapacity)

theorem submit_moves {s s' : Batcher α ε} {rows : List α} {coalesce : Bool}
    {ctxErr ctxErrLocked : Option (GoError ε)} {reply : Reply ε}
    (hstep : s.submit rows coalesce ctxErr ctxErrLocked = some (s', reply)) :
    Moves s s' := by
  simp only [submit] at hstep
  split at hstep
  · cases hstep
    exact .refl
  · rename_i hrows
    split at hstep
    · cases hstep
      exact .refl
    · cases hstep
    · cases hstep
      exact .refl
    · rename_i hlock
      cases hstep
      exact .single (.accept hlock (fun h => hrows (by simp [h])))

/-- Each iteration places at least one row of the lock holder. -/
theorem place_spec {s : Batcher α ε} (h : s.ActiveInv) {holder : Submitting α}
    (held : s.lock = some holder) (hrows : holder.rows ≠ []) :
    ∃ s' rowCount, s.place = some s' ∧ Move s s' ∧ 0 < rowCount ∧
      rowCount ≤ holder.rows.length ∧
      s'.lock = some { holder with rows := holder.rows.drop rowCount } := by
  have hpos : 0 < holder.rows.length := List.length_pos_iff.mpr hrows
  have hlength : ¬holder.rows.length = 0 := by omega
  simp only [place, held, if_neg hlength]
  by_cases hcoalesce : holder.coalesce = true
  · obtain ⟨batch, timers, nextBatch, hcurrent, heq⟩ := s.appendRequestLocked_eq
    rw [heq, if_pos hcoalesce]
    rcases appendToActive_spec
        (s := { s with
          active := some batch, timers := timers, nextBatch := nextBatch })
        holder.request hrows (fun hb => hcurrent.limit h hb) with
      ⟨hroom, happend⟩ | ⟨rowCount, timers', hcount, hle, hfull, happend⟩
    · rw [happend]
      exact ⟨_, holder.rows.length, rfl,
        .extend held hcoalesce hrows hcurrent hroom, hpos, Nat.le_refl _, by simp⟩
    · rw [happend]
      exact ⟨_, rowCount, rfl, .fill held hcoalesce hcount hle hcurrent hfull,
        hcount, hle, rfl⟩
  · rw [enqueueUnbatchedLocked_eq hrows, if_neg hcoalesce]
    exact ⟨_, holder.rows.length, rfl, .unbatched held (by simpa using hcoalesce) hrows,
      hpos, Nat.le_refl _, by simp⟩

theorem place_move {s s' : Batcher α ε} (h : s.ActiveInv)
    (hstep : s.place = some s') : s.lock ≠ none ∧ Move s s' := by
  cases held : s.lock with
  | none => simp [place, held] at hstep
  | some holder =>
      have hrows : holder.rows ≠ [] := by
        intro hnil
        simp [place, held, hnil] at hstep
      obtain ⟨next, -, hplace, hmove, -⟩ := place_spec h held hrows
      rw [hplace] at hstep
      cases hstep
      exact ⟨by simp, hmove⟩

theorem unlock_moves {s s' : Batcher α ε} (hstep : s.unlock = some s') :
    Moves s s' := by
  simp only [unlock] at hstep
  split at hstep
  · cases hstep
  · rename_i holder hlock
    split at hstep
    · rename_i hrows
      cases hstep
      exact .head (.release hlock (List.length_eq_zero_iff.mp hrows))
        (schedule_moves rfl)
    · cases hstep

theorem live_set_of_ne {timers : List Timer} {batch : CopyBatch α}
    {timer : Nat} {next : Timer} (hnext : next.batch ≠ batch.id)
    (hsame : ∀ old ∈ timers[timer]?, old.batch = next.batch)
    (hlive : Live timers batch) : Live (timers.set timer next) batch := by
  obtain ⟨t, status, ht, hget, hstatus⟩ := hlive
  refine ⟨t, status, ht, ?_, hstatus⟩
  rw [List.getElem?_set_ne, hget]
  rintro rfl
  exact hnext (hsame _ hget).symm

theorem timerFires_moves {s s' : Batcher α ε} {timer : Nat}
    (hstep : s.timerFires timer = some s') : Moves s s' := by
  simp only [timerFires] at hstep
  split at hstep
  · rename_i id hget
    cases hstep
    refine .single (.timer fun batch _ hlive => ?_)
    by_cases hid : id = batch.id
    · -- The timer of the batch itself fires: it now waits for the lock.
      obtain ⟨t, status, ht, hold, hstatus⟩ := hlive
      by_cases htimer : t = timer
      · subst htimer
        refine ⟨t, .fired, ht, ?_, .inr rfl⟩
        obtain ⟨hlt, -⟩ := List.getElem?_eq_some_iff.mp hget
        rw [List.getElem?_set_self hlt, hid]
      · refine ⟨t, status, ht, ?_, hstatus⟩
        rw [List.getElem?_set_ne (Ne.symm htimer), hold]
    · refine live_set_of_ne hid ?_ hlive
      rintro old hold
      rw [Option.mem_def, hget] at hold
      cases hold
      rfl
  · cases hstep

theorem flushExpiredBatch_moves {s s' : Batcher α ε} {timer : Nat}
    (h : s.ActiveInv) (hstep : s.flushExpiredBatch timer = some s') :
    Moves s s' := by
  simp only [flushExpiredBatch] at hstep
  split at hstep
  · rename_i id hlock hget
    -- A stale callback leaves the active batch and its timer alone.
    have hstale : (∀ batch ∈ s.active, batch.id ≠ id) →
        Move s { s with timers := s.timers.set timer ⟨id, .returned⟩ } := by
      intro hids
      refine .timer fun batch hactive hlive =>
        live_set_of_ne (hids batch hactive).symm ?_ hlive
      intro old hold
      rw [Option.mem_def, hget] at hold
      cases hold
      rfl
    split at hstep
    · rename_i hactive
      cases hstep
      exact .single (hstale (by simp [hactive]))
    · rename_i batch hactive
      split at hstep
      · rename_i hid
        cases hstep
        refine .single (hstale ?_)
        rintro _ hbatch
        rw [Option.mem_def, hactive] at hbatch
        cases hbatch
        exact hid
      · have hlength : ¬(batch.detached .linger).rows.length = 0 :=
          fun hnil => h.rows_ne_nil hactive (List.length_eq_zero_iff.mp hnil)
        simp only [enqueueLocked, if_neg hlength] at hstep
        cases hstep
        exact .head (.detach hlock hactive (.inl rfl)) (schedule_moves hlock)
  · cases hstep

theorem flushAsync_moves {s s' : Batcher α ε} {order : List Nat}
    (h : s.ActiveInv) (hstep : s.flushAsync order = some s') :
    Moves s s' := by
  simp only [flushAsync] at hstep
  split at hstep
  · cases hstep
  · rename_i hlock
    split at hstep
    · rename_i horder
      have horder' : order.Perm s.pending := List.isPerm_iff.mp horder
      cases hstep
      cases hactive : s.active with
      | none =>
          rw [enqueueActive_of_none hactive]
          obtain ⟨batches, rest, hregroup, heq, -, hcapacity⟩ := s.schedule_spec
          rw [heq]
          exact (Relation.ReflTransGen.single
            (.schedule hlock hregroup hcapacity)).tail
              (.flush hlock hactive horder')
      | some batch =>
          obtain ⟨timers, hdetach⟩ :=
            enqueueActive_of_active hactive (h.rows_ne_nil hactive) .manual
          rw [hdetach]
          obtain ⟨batches, rest, hregroup, heq, -, hcapacity⟩ :=
            schedule_spec { s with
              active := none
              queue := s.queue ++ [batch.detached .manual]
              timers := timers }
          rw [heq]
          exact ((Relation.ReflTransGen.single
            (.detach hlock hactive (.inr rfl))).tail
              (.schedule hlock hregroup hcapacity)).tail
                (.flush hlock rfl horder')
    · cases hstep

theorem copyReturns_moves {s s' : Batcher α ε} {i : Nat} {count : Int64}
    {err : Option (GoError ε)} (hstep : s.copyReturns i count err = some s') :
    Moves s s' := by
  simp only [copyReturns] at hstep
  split at hstep
  · rename_i batch outcome hrunner
    cases hstep
    exact .single (.copyReturns hrunner)
  · cases hstep

theorem finishPart_moves {s s' : Batcher α ε} {i : Nat}
    (hstep : s.finishPart i = some s') : Moves s s' := by
  simp only [finishPart] at hstep
  split at hstep
  · rename_i batch outcome request remaining completed hrunner
    split at hstep
    · cases hstep
    · rename_i r hfound
      by_cases hlast : r.pendingParts - 1 = 0
      · simp only [CopyRequest.finishPart, hlast, ne_eq, not_true_eq_false,
          if_false] at hstep
        cases hstep
        have hmove := Move.finishLast hrunner hfound hlast
        rw [hlast] at hmove
        exact .single hmove
      · simp only [CopyRequest.finishPart, ne_eq, hlast, not_false_eq_true,
          if_true] at hstep
        cases hstep
        exact .single (.finishPart hrunner hfound hlast)
  · cases hstep

theorem resolve_moves {s s' : Batcher α ε} {i : Nat}
    (hstep : s.resolve i = some s') : Moves s s' := by
  simp only [resolve] at hstep
  split at hstep
  · rename_i hrunner
    cases hstep
    exact .single (.resolve hrunner)
  · cases hstep

theorem complete_moves {s s' : Batcher α ε} {i : Nat}
    (hstep : s.complete i = some s') : Moves s s' := by
  simp only [complete] at hstep
  split at hstep
  · rename_i hlock hrunner
    cases hstep
    exact .head (.retire hlock hrunner) (schedule_moves hlock)
  · cases hstep

theorem awaitFuture_moves {s s' : Batcher α ε} {k : Nat}
    (hstep : s.awaitFuture k = some s') : Moves s s' := by
  simp only [awaitFuture] at hstep
  split at hstep
  · rename_i request remaining errs result hwaiting
    split at hstep
    · cases hstep
    · rename_i err hsettled
      cases hstep
      obtain ⟨r, hfound, houtcome⟩ := Option.bind_eq_some_iff.mp hsettled
      exact .single (.awaitFuture hwaiting hfound houtcome)
  · cases hstep

theorem flushReturns_moves {s s' : Batcher α ε} {k : Nat}
    (hstep : s.flushReturns k = some s') : Moves s s' := by
  simp only [flushReturns] at hstep
  split at hstep
  · rename_i hwaiting
    cases hstep
    exact .single (.flushReturns hwaiting)
  · cases hstep

theorem step_moves {s s' : Batcher α ε} {action : Action α ε}
    (h : s.ActiveInv) (hstep : s.step action = some s') : Moves s s' := by
  cases action with
  | submit rows coalesce ctxErr ctxErrLocked =>
      obtain ⟨⟨next, reply⟩, hsubmit, rfl⟩ := Option.map_eq_some_iff.mp hstep
      exact submit_moves hsubmit
  | place => exact .single (place_move h hstep).2
  | unlock => exact unlock_moves hstep
  | timerFires timer => exact timerFires_moves hstep
  | flushExpiredBatch timer => exact flushExpiredBatch_moves h hstep
  | flushAsync order => exact flushAsync_moves h hstep
  | copyReturns runner count err => exact copyReturns_moves hstep
  | finishPart runner => exact finishPart_moves hstep
  | resolve runner => exact resolve_moves hstep
  | complete runner => exact complete_moves hstep
  | awaitFuture flush => exact awaitFuture_moves hstep
  | flushReturns flush => exact flushReturns_moves hstep

/-! ## Induction over moves -/

theorem initial_activeInv (config : BatcherConfig) :
    (Batcher.initial config : Batcher α ε).ActiveInv :=
  ⟨nofun, nofun, nofun, nofun⟩

theorem Moves.invariant {P : Batcher α ε → Prop} {s s' : Batcher α ε}
    (hmoves : Moves s s') (h : s.ActiveInv) (start : P s)
    (move : ∀ {s s' : Batcher α ε}, s.ActiveInv → P s → Move s s' → P s') :
    s'.ActiveInv ∧ P s' := by
  induction hmoves with
  | refl => exact ⟨h, start⟩
  | tail _ hmove ih => exact ⟨ih.1.move hmove, move ih.1 ih.2 hmove⟩

end Batcher

open Batcher

theorem newCopyBatcher_eq_ok {config : CopyBatchConfig}
    {start : Batcher α ε} (h : newCopyBatcher config false = .ok start) :
    ∃ accepted, start = Batcher.initial accepted := by
  unfold newCopyBatcher at h
  split at h
  · cases h
  · cases h
    exact ⟨_, rfl⟩

namespace Reachable

/-- The invariant rule of the batcher: it is enough to check every move. -/
theorem invariant {P : Batcher α ε → Prop} {s : Batcher α ε}
    (h : Reachable s) (start : ∀ config, P (Batcher.initial config))
    (move : ∀ {s s' : Batcher α ε}, s.ActiveInv → P s → Move s s' → P s') :
    s.ActiveInv ∧ P s := by
  obtain ⟨config, first, hnew, hreach⟩ := h
  obtain ⟨accepted, rfl⟩ := newCopyBatcher_eq_ok hnew
  exact hreach.invariant (P := fun s => s.ActiveInv ∧ P s)
    ⟨initial_activeInv accepted, start accepted⟩
    fun ⟨hactive, hP⟩ hstep =>
      Moves.invariant (step_moves hactive hstep) hactive hP move

theorem activeInv {s : Batcher α ε} (h : Reachable s) : s.ActiveInv :=
  (h.invariant (P := fun _ => True) (fun _ => trivial) (fun _ _ _ => trivial)).1

theorem trans {s t : Batcher α ε} (h : Reachable s)
    (run : Reaches Batcher.step s t) : Reachable t := by
  obtain ⟨config, first, hnew, hreach⟩ := h
  exact ⟨config, first, hnew, hreach.trans run⟩

/-- A preorder that every move out of a reachable state respects relates the ends of a run. -/
theorem relation {R : Batcher α ε → Batcher α ε → Prop}
    {P : Batcher α ε → Prop} {s t : Batcher α ε} (h : Reachable s)
    (run : Reaches Batcher.step s t) (start : P s)
    (move : ∀ {s s' : Batcher α ε}, s.ActiveInv → P s → Move s s' → P s')
    (refl : ∀ s, R s s) (trans : ∀ {s t u}, R s t → R t u → R s u)
    (single : ∀ {s s' : Batcher α ε}, s.ActiveInv → P s → Move s s' → R s s') :
    R s t := by
  have hmoves : ∀ {s s' : Batcher α ε}, s.ActiveInv → P s → Moves s s' → R s s' := by
    intro s s' hactive hP hmoves
    induction hmoves with
    | refl => exact refl s
    | tail hprefix hmove ih =>
        obtain ⟨hactive', hP'⟩ := Moves.invariant hprefix hactive hP move
        exact trans ih (single hactive' hP' hmove)
  exact run.relation (P := fun s => s.ActiveInv ∧ P s) ⟨h.activeInv, start⟩
    (fun ⟨hactive, hP⟩ hstep =>
      Moves.invariant (step_moves hactive hstep) hactive hP move)
    refl trans
    (fun ⟨hactive, hP⟩ hstep => hmoves hactive hP (step_moves hactive hstep))

end Reachable

end PgMesh.Copy
