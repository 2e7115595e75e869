import PgMesh.Copy.Config
import PgMesh.Foundation.Future
import PgMesh.Foundation.Transition

/-!
# The copy batcher as a transition system

The functions below are those of `copy_batch.go`.  One label of `Action` is
one stretch of code that other goroutines see as indivisible:

* everything done under `b.mu` by a timer, by `FlushAsync` or at the end of
  `runBatch`, since no other goroutine reads the batcher's fields without
  the lock;
* `submit` in three parts (`submit`, one `place` for each part it adds,
  `unlock`), since its calls of `addPart` are visible to the goroutines that
  run `finishPart` without the batcher's lock;
* `runBatch` in one label for each of its critical sections.

A batch, a request, a timer, a goroutine of `runBatch` and a call of
`FlushAsync` are named by the order in which they are created.
-/

namespace PgMesh.Copy

open PgMesh.Foundation

variable {α ε : Type}

/-! ## Requests -/

structure CopyRequest (ε : Type) where
  result : Future Int64 ε
  rowCount : Nat
  pendingParts : Int
  errs : List (GoError ε)

def newCopyRequest (rowCount : Nat) : CopyRequest ε where
  result := Future.new
  rowCount := rowCount
  pendingParts := 0
  errs := []

namespace CopyRequest

def addPart (r : CopyRequest ε) : CopyRequest ε :=
  { r with pendingParts := r.pendingParts + 1 }

/--
The part of `finishPart` under the request's mutex.  The second component is
the joined error to resolve the future with, when no part is left.
-/
def finishPart (r : CopyRequest ε) (err : Option (GoError ε)) :
    CopyRequest ε × Option (Option (GoError ε)) :=
  let errs := r.errs ++ err.toList
  let pendingParts := r.pendingParts - 1
  ({ r with errs := errs, pendingParts := pendingParts },
    if pendingParts ≠ 0 then none else some (GoError.join errs))

/-- The rest of `finishPart`, after the request's mutex is released. -/
def resolve (r : CopyRequest ε) (err : Option (GoError ε)) : CopyRequest ε :=
  match err with
  | some err => { r with result := r.result.resolve 0 (some err) }
  | none =>
      { r with result := r.result.resolve (Int64.ofNat r.rowCount) none }

end CopyRequest

/-! ## Batches -/

inductive FlushReason where
  | full
  | linger
  | manual
  | unbatched
  deriving DecidableEq, Repr

/-- The rows that one request has in one batch. -/
structure CopyPart (α : Type) where
  request : Nat
  rows : List α
  deriving DecidableEq, Repr

/--
The slices `rows` and `requests` of a batch always grow together, by the rows
of one part and its request, so a batch is kept as its list of parts.  A
batch that is still open has no reason yet.
-/
structure CopyBatch (α : Type) where
  id : Nat
  parts : List (CopyPart α)
  timer : Option Nat
  reason : Option FlushReason
  deriving DecidableEq, Repr

namespace CopyBatch

def rows (b : CopyBatch α) : List α := b.parts.flatMap CopyPart.rows

def requests (b : CopyBatch α) : List Nat := b.parts.map CopyPart.request

def append (b : CopyBatch α) (request : Nat) (rows : List α) : CopyBatch α :=
  { b with parts := b.parts ++ [⟨request, rows⟩] }

/-- The batch once it is no longer the active one. -/
def detached (b : CopyBatch α) (reason : FlushReason) : CopyBatch α :=
  { b with timer := none, reason := some reason }

/-- Append the rows and requests of a later batch. -/
def merge (b next : CopyBatch α) : CopyBatch α :=
  { b with parts := b.parts ++ next.parts }

end CopyBatch

/-- `fired` means that the callback is waiting for the lock. -/
inductive TimerStatus where
  | armed
  | fired
  | stopped
  | returned
  deriving DecidableEq, Repr

structure Timer where
  batch : Nat
  status : TimerStatus
  deriving DecidableEq, Repr

/-- `time.Timer.Stop`: a callback that has already started is not stopped. -/
def Timer.stop (t : Timer) : Timer :=
  match t.status with
  | .armed => { t with status := .stopped }
  | _ => t

/-! ## Goroutines -/

/--
Where a goroutine of `runBatch` is: in the physical COPY, in the loop that
finishes one part of each request, between the two halves of `finishPart` of
one request, or past its last critical section.
-/
inductive RunPhase (ε : Type) where
  | copying
  | finishing (remaining completed : List Nat)
  | resolving (request : Nat) (err : Option (GoError ε))
      (remaining completed : List Nat)
  | exited

def RunPhase.isExited : RunPhase ε → Bool
  | .exited => true
  | _ => false

def errCopyBatchCountMismatch : GoError ε :=
  .new "pgmesh: copy batch row count mismatch"

/-- The error of one physical COPY, where a wrong row count is an error. -/
def copyError (rowCount : Nat) (count : Int64) (err : Option (GoError ε)) :
    Option (GoError ε) :=
  match err with
  | some err => some err
  | none =>
      if count ≠ Int64.ofNat rowCount then
        some (.errorf "%w: got %d, want %d"
          [.wrapped errCopyBatchCountMismatch, .number count.toInt,
            .number rowCount])
      else none

/-- A goroutine of `runBatch`, with what its physical COPY returned. -/
structure Runner (α ε : Type) where
  batch : CopyBatch α
  outcome : Option (Int64 × Option (GoError ε))
  phase : RunPhase ε

def Runner.start (batch : CopyBatch α) : Runner α ε :=
  ⟨batch, none, .copying⟩

def Runner.err (r : Runner α ε) : Option (GoError ε) :=
  match r.outcome with
  | none => none
  | some (count, err) => copyError r.batch.rows.length count err

/-- The call of `submit` that holds the lock, with the rows it still has to place. -/
structure Submitting (α : Type) where
  request : Nat
  rows : List α
  coalesce : Bool
  deriving DecidableEq, Repr

/--
A call of `FlushAsync`: the futures it awaits and the goroutine that awaits
them in that order.  `barrier` records how many requests had been accepted.
-/
structure Flush (ε : Type) where
  barrier : Nat
  futures : List Nat
  remaining : List Nat
  errs : List (GoError ε)
  result : Future Unit ε

/-- An accepted call of `Submit` or `SubmitUnbatched`. -/
structure Submission (α : Type) where
  rows : List α
  coalesce : Bool
  deriving DecidableEq, Repr

/--
The fields of `CopyBatcher`, followed by the lock, the heap, the timers and
the goroutines of the runtime.  `accepted` records the accepted submissions
and is read by no function.
-/
structure Batcher (α ε : Type) where
  config : BatcherConfig
  active : Option (CopyBatch α)
  queue : List (CopyBatch α)
  inFlight : Int
  pending : List Nat
  lock : Option (Submitting α)
  requests : List (CopyRequest ε)
  timers : List Timer
  nextBatch : Nat
  runners : List (Runner α ε)
  flushes : List (Flush ε)
  accepted : List (Submission α)

def errNilCopyBatchFunc : GoError ε :=
  .new "pgmesh: copy batch function is nil"

def Batcher.initial (config : BatcherConfig) : Batcher α ε where
  config := config
  active := none
  queue := []
  inFlight := 0
  pending := []
  lock := none
  requests := []
  timers := []
  nextBatch := 0
  runners := []
  flushes := []
  accepted := []

/-- `NewCopyBatcher`; the COPY function itself is part of the environment. -/
def newCopyBatcher (config : CopyBatchConfig) (copyBatchIsNil : Bool) :
    Except (GoError ε) (Batcher α ε) :=
  match h : config.validate (ε := ε) with
  | some err => .error err
  | none =>
      if copyBatchIsNil then .error errNilCopyBatchFunc
      else .ok (Batcher.initial (config.accepted h))

namespace Batcher

/-! ## Critical sections of the batcher -/

def addPart (s : Batcher α ε) (request : Nat) : Batcher α ε :=
  { s with requests := s.requests.modify request CopyRequest.addPart }

def openBatchLocked (s : Batcher α ε) : Batcher α ε × CopyBatch α :=
  let batch : CopyBatch α := ⟨s.nextBatch, [], some s.timers.length, none⟩
  ({ s with
      active := some batch
      timers := s.timers ++ [⟨s.nextBatch, .armed⟩]
      nextBatch := s.nextBatch + 1 }, batch)

def stopTimer (s : Batcher α ε) (timer : Option Nat) : Batcher α ε :=
  match timer with
  | none => s
  | some timer => { s with timers := s.timers.modify timer Timer.stop }

def detachActiveLocked (s : Batcher α ε) (reason : FlushReason) :
    Batcher α ε × Option (CopyBatch α) :=
  match s.active with
  | none => (s, none)
  | some batch =>
      ({ s with active := none }.stopTimer batch.timer,
        some (batch.detached reason))

def enqueueLocked (s : Batcher α ε) (batch : Option (CopyBatch α)) :
    Batcher α ε :=
  match batch with
  | none => s
  | some batch =>
      if batch.rows.length = 0 then s
      else { s with queue := s.queue ++ [batch] }

/-- `b.enqueueLocked(b.detachActiveLocked(reason))`. -/
def enqueueActive (s : Batcher α ε) (reason : FlushReason) : Batcher α ε :=
  let (s, batch) := s.detachActiveLocked reason
  s.enqueueLocked batch

def enqueueUnbatchedLocked (s : Batcher α ε) (rows : List α)
    (request : Nat) : Batcher α ε :=
  let s := s.addPart request
  { s with nextBatch := s.nextBatch + 1 }.enqueueLocked
    (some ⟨s.nextBatch, [⟨request, rows⟩], none, some .unbatched⟩)

/-- The body of the loop of `appendRequestLocked`, for the active batch. -/
def appendToActive (s : Batcher α ε) (active : CopyBatch α) (rows : List α)
    (request : Nat) : Batcher α ε × List α :=
  let rowCount : Nat :=
    if 0 < s.config.maxRowsPerBatch then
      (min (rows.length : Int)
        (s.config.maxRowsPerBatch - active.rows.length)).toNat
    else rows.length
  let active := active.append request (rows.take rowCount)
  let s := { s with active := some active }.addPart request
  let s :=
    if 0 < s.config.maxRowsPerBatch ∧
        (active.rows.length : Int) = s.config.maxRowsPerBatch then
      s.enqueueActive .full
    else s
  (s, rows.drop rowCount)

/-- One iteration of the loop of `appendRequestLocked`, with the rows left over. -/
def appendRequestLocked (s : Batcher α ε) (rows : List α) (request : Nat) :
    Batcher α ε × List α :=
  match s.active with
  | none =>
      let (s, active) := s.openBatchLocked
      s.appendToActive active rows request
  | some active => s.appendToActive active rows request

/-- The loop of `dequeueLocked` that merges linger-expired batches. -/
def mergeLinger (config : BatcherConfig) (batch : CopyBatch α) :
    List (CopyBatch α) → CopyBatch α × List (CopyBatch α)
  | [] => (batch, [])
  | next :: queue =>
      if next.reason ≠ some .linger then (batch, next :: queue)
      else if 0 < config.maxRowsPerBatch ∧
          (batch.rows.length + next.rows.length : Int) >
            config.maxRowsPerBatch then
        (batch, next :: queue)
      else mergeLinger config (batch.merge next) queue

def dequeueLocked (config : BatcherConfig) (batch : CopyBatch α)
    (queue : List (CopyBatch α)) : CopyBatch α × List (CopyBatch α) :=
  if batch.reason ≠ some .linger then (batch, queue)
  else mergeLinger config batch queue

/-- The loop of `scheduleLocked`: the batches taken and the queue left. -/
def takeBatches (config : BatcherConfig) :
    Nat → List (CopyBatch α) → List (CopyBatch α) × List (CopyBatch α)
  | 0, queue => ([], queue)
  | _, [] => ([], [])
  | capacity + 1, batch :: queue =>
      let (batch, queue) := dequeueLocked config batch queue
      let (batches, queue) := takeBatches config capacity queue
      (batch :: batches, queue)

def scheduleLocked (s : Batcher α ε) : Batcher α ε × List (CopyBatch α) :=
  let capacity := s.config.maxConcurrentBatches - s.inFlight
  if capacity ≤ 0 ∨ s.queue.length = 0 then (s, [])
  else
    let (batches, queue) := takeBatches s.config capacity.toNat s.queue
    ({ s with queue := queue, inFlight := s.inFlight + batches.length },
      batches)

def dispatch (s : Batcher α ε) (batches : List (CopyBatch α)) :
    Batcher α ε :=
  { s with runners := s.runners ++ batches.map Runner.start }

/-- The end of every critical section that may have changed the queue. -/
def schedule (s : Batcher α ε) : Batcher α ε :=
  let (s, batches) := s.scheduleLocked
  s.dispatch batches

/-! ## Labels and steps -/

/-- What a caller of `submit` gets: a resolved future, or that of a request. -/
inductive Reply (ε : Type) where
  | resolved (value : Int64) (err : Option (GoError ε))
  | pending (request : Nat)

def accept (s : Batcher α ε) (rows : List α) (coalesce : Bool) :
    Batcher α ε :=
  { s with
    requests := s.requests ++ [newCopyRequest rows.length]
    pending := s.pending ++ [s.requests.length]
    lock := some ⟨s.requests.length, rows, coalesce⟩
    accepted := s.accepted ++ [⟨rows, coalesce⟩] }

/--
`submit` up to the point where it holds the lock and has registered the
request.  `ctxErr` and `ctxErrLocked` are the values of its two calls of
`ctx.Err()`; `none` means that it waits for the lock.
-/
def submit (s : Batcher α ε) (rows : List α) (coalesce : Bool)
    (ctxErr ctxErrLocked : Option (GoError ε)) :
    Option (Batcher α ε × Reply ε) :=
  if rows.length = 0 then some (s, .resolved 0 none)
  else
    match ctxErr, s.lock, ctxErrLocked with
    | some err, _, _ => some (s, .resolved 0 (some err))
    | none, some _, _ => none
    | none, none, some err => some (s, .resolved 0 (some err))
    | none, none, none =>
        some (s.accept rows coalesce, .pending s.requests.length)

/-- The lock holder adds its next part. -/
def place (s : Batcher α ε) : Option (Batcher α ε) :=
  match s.lock with
  | none => none
  | some holder =>
      if holder.rows.length = 0 then none
      else if holder.coalesce then
        let (s, rows) := s.appendRequestLocked holder.rows holder.request
        some { s with lock := some { holder with rows := rows } }
      else
        some { s.enqueueUnbatchedLocked holder.rows holder.request with
          lock := some { holder with rows := [] } }

/-- The lock holder has no row left: it schedules, unlocks and dispatches. -/
def unlock (s : Batcher α ε) : Option (Batcher α ε) :=
  match s.lock with
  | none => none
  | some holder =>
      if holder.rows.length = 0 then some { s with lock := none }.schedule
      else none

/-- The runtime starts the callback of an armed timer. -/
def timerFires (s : Batcher α ε) (timer : Nat) : Option (Batcher α ε) :=
  match s.timers[timer]? with
  | some ⟨batch, .armed⟩ =>
      some { s with timers := s.timers.set timer ⟨batch, .fired⟩ }
  | _ => none

def flushExpiredBatch (s : Batcher α ε) (timer : Nat) :
    Option (Batcher α ε) :=
  match s.lock, s.timers[timer]? with
  | none, some ⟨batch, .fired⟩ =>
      let s := { s with timers := s.timers.set timer ⟨batch, .returned⟩ }
      match s.active with
      | none => some s
      | some active =>
          if active.id ≠ batch then some s
          else
            some ({ s with active := none }.enqueueLocked
              (some (active.detached .linger))).schedule
  | _, _ => none

/-- `order` is the order in which Go iterates over the pending map. -/
def flushAsync (s : Batcher α ε) (order : List Nat) : Option (Batcher α ε) :=
  match s.lock with
  | some _ => none
  | none =>
      if order.isPerm s.pending then
        let s := (s.enqueueActive .manual).schedule
        some { s with
          flushes := s.flushes ++
            [⟨s.requests.length, order, order, [], Future.new⟩] }
      else none

/-- The physical COPY of a batch returns. -/
def copyReturns (s : Batcher α ε) (runner : Nat) (count : Int64)
    (err : Option (GoError ε)) : Option (Batcher α ε) :=
  match s.runners[runner]? with
  | some ⟨batch, _, .copying⟩ =>
      some { s with
        runners := s.runners.set runner
          ⟨batch, some (count, err), .finishing batch.requests []⟩ }
  | _ => none

def finishPart (s : Batcher α ε) (runner : Nat) : Option (Batcher α ε) :=
  match s.runners[runner]? with
  | some ⟨batch, outcome, .finishing (request :: remaining) completed⟩ =>
      match s.requests[request]? with
      | none => none
      | some r =>
          let (r, last) := r.finishPart (Runner.err ⟨batch, outcome, .copying⟩)
          let phase : RunPhase ε :=
            match last with
            | none => .finishing remaining completed
            | some err => .resolving request err remaining completed
          some { s with
            requests := s.requests.set request r
            runners := s.runners.set runner ⟨batch, outcome, phase⟩ }
  | _ => none

def resolve (s : Batcher α ε) (runner : Nat) : Option (Batcher α ε) :=
  match s.runners[runner]? with
  | some ⟨batch, outcome, .resolving request err remaining completed⟩ =>
      some { s with
        requests := s.requests.modify request (·.resolve err)
        runners := s.runners.set runner
          ⟨batch, outcome, .finishing remaining (completed ++ [request])⟩ }
  | _ => none

/-- The last critical section of `runBatch`. -/
def complete (s : Batcher α ε) (runner : Nat) : Option (Batcher α ε) :=
  match s.lock, s.runners[runner]? with
  | none, some ⟨batch, outcome, .finishing [] completed⟩ =>
      some { s with
        pending := s.pending.filter (· ∉ completed)
        inFlight := s.inFlight - 1
        runners := s.runners.set runner ⟨batch, outcome, .exited⟩ }.schedule
  | _, _ => none

/-- The goroutine of a flush finds its next future resolved. -/
def awaitFuture (s : Batcher α ε) (flush : Nat) : Option (Batcher α ε) :=
  match s.flushes[flush]? with
  | some ⟨barrier, futures, request :: remaining, errs, result⟩ =>
      match (s.requests[request]?).bind (·.result.await) with
      | none => none
      | some (_, err) =>
          some { s with
            flushes := s.flushes.set flush
              ⟨barrier, futures, remaining, errs ++ err.toList, result⟩ }
  | _ => none

def flushReturns (s : Batcher α ε) (flush : Nat) : Option (Batcher α ε) :=
  match s.flushes[flush]? with
  | some ⟨barrier, futures, [], errs, ⟨none⟩⟩ =>
      some { s with
        flushes := s.flushes.set flush
          ⟨barrier, futures, [], errs,
            Future.resolved () (GoError.join errs)⟩ }
  | _ => none

end Batcher

inductive Action (α ε : Type) where
  | submit (rows : List α) (coalesce : Bool)
      (ctxErr ctxErrLocked : Option (GoError ε))
  | place
  | unlock
  | timerFires (timer : Nat)
  | flushExpiredBatch (timer : Nat)
  | flushAsync (order : List Nat)
  | copyReturns (runner : Nat) (count : Int64) (err : Option (GoError ε))
  | finishPart (runner : Nat)
  | resolve (runner : Nat)
  | complete (runner : Nat)
  | awaitFuture (flush : Nat)
  | flushReturns (flush : Nat)

def Batcher.step (s : Batcher α ε) : Action α ε → Option (Batcher α ε)
  | .submit rows coalesce ctxErr ctxErrLocked =>
      (s.submit rows coalesce ctxErr ctxErrLocked).map Prod.fst
  | .place => s.place
  | .unlock => s.unlock
  | .timerFires timer => s.timerFires timer
  | .flushExpiredBatch timer => s.flushExpiredBatch timer
  | .flushAsync order => s.flushAsync order
  | .copyReturns runner count err => s.copyReturns runner count err
  | .finishPart runner => s.finishPart runner
  | .resolve runner => s.resolve runner
  | .complete runner => s.complete runner
  | .awaitFuture flush => s.awaitFuture flush
  | .flushReturns flush => s.flushReturns flush

/-- Reachable from a new batcher, by any interleaving. -/
def Reachable (s : Batcher α ε) : Prop :=
  ∃ config start, newCopyBatcher config false = .ok start ∧
    Reaches Batcher.step start s

end PgMesh.Copy
